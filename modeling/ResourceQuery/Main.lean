import ResourceQuery.Service

/-! # The command line

Requests are read from standard input, one a line: a method, a target, and the rest of the line as a JSON
body. Each is answered with a line that holds the status and the body of the answer.

`--base-path` and `--max-body-bytes` set up the service. -/

namespace ResourceQuery

/-- Why the arguments are refused. -/
inductive ArgumentError where
  | unknown (argument : String)
  | invalidNumber (option value : String)
deriving DecidableEq, Repr

/-- The wording of an error. -/
def ArgumentError.message : ArgumentError → String
  | unknown argument => "unexpected argument " ++ Text.quoted argument
  | invalidNumber option value => "invalid value " ++ Text.quoted value ++ " for " ++ option

/-- **The service that arguments set up**, starting from another. -/
def Service.ofArguments (s : Service) : List String → Except ArgumentError Service
  | [] => .ok s
  | "--base-path" :: path :: rest =>
    ofArguments { s with translator := { s.translator with basePath := path } } rest
  | "--max-body-bytes" :: value :: rest =>
    match Window.unsigned? value.toList with
    | some n => ofArguments { s with bodyLimit := n } rest
    | none => .error (.invalidNumber "--max-body-bytes" value)
  | argument :: _ => .error (.unknown argument)

/-- The answer to a line. -/
def Service.answerLine (s : Service) (line : List Char) : Response :=
  let (method, rest) := (Text.splitOnce ' ' line).getD (line, ['/'])
  let (target, body) := (Text.splitOnce ' ' rest).getD (rest, [])
  s.respond (String.ofList method) (String.ofList target) [("Content-Type", Payload.jsonType)]
    (Text.Utf8.encode body)

/-- Lines are answered until the input ends. -/
partial def Service.serve (s : Service) (input output : IO.FS.Stream) : IO Unit := do
  let line ← input.getLine
  if line.isEmpty then return
  let answer := s.answerLine (Text.trim line.toList)
  output.putStrLn (toString answer.status ++ " " ++ answer.body)
  output.flush
  s.serve input output

end ResourceQuery

/-- The program. -/
def main (args : List String) : IO UInt32 := do
  match ResourceQuery.Service.ofArguments {} args with
  | .ok s =>
    s.serve (← IO.getStdin) (← IO.getStdout)
    return 0
  | .error e =>
    IO.eprintln ("error: " ++ e.message)
    return 2
