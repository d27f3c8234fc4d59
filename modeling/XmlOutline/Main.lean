import XmlOutline.CommandLine.Run

/-!
# The program

Reads the standard input, runs, and writes what the run leaves behind.
-/

namespace XmlOutline

/-- Reads a stream to its end. -/
partial def readAll (stream : IO.FS.Stream) (read : ByteArray) : IO ByteArray := do
  let chunk ← stream.read 65536
  if chunk.isEmpty then return read else readAll stream (read ++ chunk)

/-- The environment that the program was started in. -/
def currentEnvironment : IO CommandLine.Environment := do
  let overrides ← IO.getEnv "XMLPRETTY_COLORS"
  let noColor ← IO.getEnv "NO_COLOR"
  let valueOf (name : String) : Option String :=
    if name = "XMLPRETTY_COLORS" then overrides
    else if name = "NO_COLOR" then noColor
    else none
  return {
    valueOf
    inputIsTerminal := ← (← IO.getStdin).isTty
    outputIsTerminal := ← (← IO.getStdout).isTty }

end XmlOutline

/-- Formats the document on the standard input. -/
def main (arguments : List String) : IO UInt32 := do
  let environment ← XmlOutline.currentEnvironment
  let input ←
    if environment.inputIsTerminal || !XmlOutline.CommandLine.needsInput arguments then
      pure ByteArray.empty
    else XmlOutline.readAll (← IO.getStdin) ByteArray.empty
  let result := XmlOutline.CommandLine.run arguments environment input
  (← IO.getStdout).putStr result.output
  (← IO.getStderr).putStr result.errors
  return UInt32.ofNat result.exitCode
