import ApiStubs.Output

/-!
# The command

Reads a saved document, `CoreLuaAPI.json` unless another path is given, and writes the stub file into
the directory `generated`.
-/

open ApiStubs in
def main (args : List String) : IO UInt32 := do
  let bytes ← IO.FS.readBinFile (args.headD "CoreLuaAPI.json")
  let run := Output.generateFromFile "generated" bytes.toList none
  if let some text := run.file then
    IO.FS.createDirAll "generated"
    IO.FS.writeFile ("generated/" ++ Output.fileName) text
  IO.print run.printed
  match run.fault with
  | none => return 0
  | some fault =>
    IO.eprintln fault.message
    return 1
