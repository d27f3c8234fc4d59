import XmlOutline.Style.Basic
import XmlOutline.Text.Blank

/-!
# Overrides of a style

A list of overrides has the form `role=parameters:role=parameters`.  Blanks
around entries, roles and parameters do not matter, nor do empty entries.  Empty
parameters remove the decoration of a role.  Entries count from left to right,
so the last one for a role decides.
-/

namespace XmlOutline

/-- Why an entry of a list of overrides cannot be used. -/
inductive OverrideFault where
  /-- The entry has no equals sign. -/
  | noEqualsSign (entry : Text)
  /-- No role has this name. -/
  | unknownRole (name : Text)
  /-- The parameters are not made of digits and semicolons. -/
  | badParameters (parameters : Text) (role : Role)
deriving DecidableEq

namespace OverrideFault

/-- The wording of a fault. -/
def message : OverrideFault → String
  | noEqualsSign entry => "expected `role=params`, got `" ++ String.ofList entry ++ "`"
  | unknownRole name => "unknown role `" ++ String.ofList name ++ "`"
  | badParameters parameters role =>
      "`" ++ String.ofList parameters ++ "` is not a list of SGR codes for " ++ role.name

end OverrideFault

/-- A decoration for one role. -/
structure Override where
  role : Role
  decoration : Decoration

namespace Override

/-- The role of a given name. -/
def parseRole (name : Text) : Except OverrideFault Role :=
  match Role.ofName? name with
  | some role => .ok role
  | none => .error (.unknownRole name)

/-- The decoration with the given parameters. -/
def decorationOf (parameters : Text) : Decoration :=
  if parameters.isEmpty then .identity else .sgr parameters

/-- Reads one entry. -/
def parse (entry : Text) : Except OverrideFault Override :=
  match entry.dropWhile (· != '=') with
  | [] => .error (.noEqualsSign entry)
  | _ :: behind => do
      let role ← parseRole (Text.trim (entry.takeWhile (· != '=')))
      let parameters := Text.trim behind
      if parameters.all Sgr.isParameter then return ⟨role, decorationOf parameters⟩
      else throw (.badParameters parameters role)

/-- The entries of a list of overrides. -/
def entries (overrides : Text) : List Text :=
  ((overrides.splitOn ':').map Text.trim).filter fun entry => !entry.isEmpty

end Override

namespace Style

/-- Applies one override. -/
def apply (style : Style) (override : Override) : Style :=
  style.update override.role override.decoration

/-- Applies a list of overrides, up to the first entry that cannot be used. -/
def withOverrides (style : Style) (overrides : Text) : Except OverrideFault Style :=
  (Override.entries overrides).foldlM (fun style entry => style.apply <$> Override.parse entry)
    style

end Style

end XmlOutline
