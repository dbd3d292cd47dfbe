import SnippetEval.CommandLine

namespace SnippetEval.CommandLine

def readHostFile (path : String) : IO (Except HostError HostDescription) := do
  try
    let text ← IO.FS.readFile path
    return HostDescription.ofText text
  catch _ =>
    return .error (.unreadable path "No such file or directory (os error 2)")

def showReport (r : Report) : IO UInt32 := do
  IO.print r.output
  IO.eprint (String.join r.messages)
  return r.code.toUInt32

def runProgram (args : List String) : IO UInt32 := do
  match parse {} args with
  | .usageError => return 2
  | .version => showReport versionReport
  | .evaluate o =>
    let host ← match o.host with
      | some path => readHostFile path
      | none => pure (.ok {})
    showReport (o.run host)

end SnippetEval.CommandLine

def main (args : List String) : IO UInt32 := SnippetEval.CommandLine.runProgram args
