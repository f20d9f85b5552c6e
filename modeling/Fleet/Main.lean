import Fleet.CommandLine
import Fleet.Json.Indented
import Fleet.Wire.Scaling

/-!
The program: reads the file that the command line names, carries the command out and shows the
response.
-/
namespace Fleet

/-- The error with a number as the system gives it, with a minus sign in front or without. -/
def ReadError.ofNumber (reason : String) (number : UInt32) : ReadError :=
  ofCode reason.capitalize (min number.toNat (0 - number).toNat)

/-- What a failure of the operating system means for reading a file. -/
def ReadError.ofFailure : IO.Error → ReadError
  | .noFileOrDirectory _ code reason => ofNumber reason code
  | .interrupted _ code reason => ofNumber reason code
  | .alreadyExists _ code reason => ofNumber reason code
  | .invalidArgument _ code reason => ofNumber reason code
  | .permissionDenied _ code reason => ofNumber reason code
  | .resourceExhausted _ code reason => ofNumber reason code
  | .inappropriateType _ code reason => ofNumber reason code
  | .noSuchThing _ code reason => ofNumber reason code
  | .otherError code reason => ofNumber reason code
  | .resourceBusy code reason => ofNumber reason code
  | .resourceVanished code reason => ofNumber reason code
  | .unsupportedOperation code reason => ofNumber reason code
  | .hardwareFault code reason => ofNumber reason code
  | .unsatisfiedConstraints code reason => ofNumber reason code
  | .illegalOperation code reason => ofNumber reason code
  | .protocolError code reason => ofNumber reason code
  | .timeExpired code reason => ofNumber reason code
  | .unexpectedEof => .notText
  | .userError _ => .notText

def readSettings (file : String) : IO (Except ReadError String) :=
  try
    return .ok (← IO.FS.readFile file)
  catch e => return .error (.ofFailure e)

def usageText : String :=
  "usage: [--json] simulate --config FILE [--ticks N] | run --config FILE | config"

/-- Prints a response: results on the standard output, and why there are none beside it. -/
def Response.print (r : Response) : IO Unit :=
  match r with
  | .usage => IO.eprintln usageText
  | .text s => IO.print s
  | .history events => IO.println (Json.arr (events.map Recommendation.encode)).indented
  | .ready _ => pure ()
  | .failed message => IO.eprintln ("Error: " ++ message)
  | .fault f => IO.eprintln f.message

def respond (words : List String) : IO Response := do
  match Command.ofWords? words with
  | none => return .usage
  | some c =>
    let content ← match c.source? with
      | some file => readSettings file
      | none => pure (.ok "")
    return c.execute content

end Fleet

def main (words : List String) : IO UInt32 := do
  let response ← Fleet.respond words
  response.print
  return UInt32.ofNat response.code
