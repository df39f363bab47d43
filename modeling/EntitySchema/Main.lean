import EntitySchema.Command.Run
import Std.Time.DateTime

/-!
The program: reads what a run needs, runs, prints and writes.
-/

namespace EntitySchema.Command

def Invocation.paths (invocation : Invocation) : List String :=
  invocation.config.getD Configuration.defaultPath ::
    match invocation.action with
    | .updateInputs schema _ => schema.toList
    | .createInput model _ => [model]
    | .prepare model _ payload => model :: payload.toList
    | .planViews model store => model :: (store.map (·.path)).toList

def Invocation.readsInput (invocation : Invocation) : Bool :=
  match invocation.action with
  | .updateInputs none _ | .prepare _ _ none => true
  | _ => false

def decodeText (bytes : ByteArray) : Except ReadFault String :=
  match String.fromUTF8? bytes with
  | some text => .ok text
  | none => .error (.unreadable "stream did not contain valid UTF-8")

/-- The number of an error of the system, which comes with or without a minus. -/
def errorNumber (code : UInt32) : UInt32 := if code < 0x80000000 then code else 0 - code

def faultOf (e : IO.Error) : ReadFault :=
  let other : ReadFault := .unreadable (toString e)
  match e with
  | .noFileOrDirectory .. => .missing
  | .inappropriateType _ code _ =>
    if errorNumber code = 20 then .notDirectory
    else if errorNumber code = 21 then .isDirectory
    else other
  | .invalidArgument _ code _ => if errorNumber code = 36 then .nameTooLong else other
  | _ => other

def readFile (path : String) : IO (Except ReadFault String) := do
  try
    return decodeText (← IO.FS.readBinFile path)
  catch e => return .error (faultOf e)

def hexText (digits n : Nat) : String :=
  String.ofList <| (List.range digits).reverse.map fun i => Json.hexDigit (n / Nat.pow 16 i % 16)

def uuid (high low : Nat) : String :=
  let third := 0x4000 + high % 0x1000
  let fourth := 0x8000 + low / Nat.pow 2 48 % 0x4000
  "-".intercalate
    [hexText 8 (high / Nat.pow 2 32), hexText 4 (high / Nat.pow 2 16), hexText 4 third,
      hexText 4 fourth, hexText 12 low]

def mixed (seed : UInt64) (position : List PathStep) : Nat :=
  (position.foldl (fun h step =>
    match step with
    | .field name => mixHash (mixHash h 1) (hash name)
    | .item index => mixHash (mixHash h 2) (hash index)) seed).toNat

def randomNumber : IO UInt64 := do
  return (← IO.getRandomBytes 8).foldl (fun n byte => n * 256 + byte.toUInt64) 0

def creationNow : IO Creation := do
  let now ← Std.Time.Timestamp.now
  let nanos := now.toNanosecondsSinceUnixEpoch.val
  let high ← randomNumber
  let low ← randomNumber
  return { now := { seconds := nanos / 1000000000, nanos := (nanos % 1000000000).toNat }
           freshId := fun position => uuid (mixed high position) (mixed low position) }

def readEnvironment : IO (List (String × String)) := do
  let .ok text ← readFile "/proc/self/environ" | return []
  return (text.splitOn "\x00").filterMap fun entry =>
    match entry.splitOn "=" with
    | name :: first :: rest => some (name, "=".intercalate (first :: rest))
    | _ => none

def surroundings (environment : List (String × String)) (invocation? : Option Invocation) :
    IO Surroundings := do
  let paths := invocation?.elim [] Invocation.paths
  let files ← paths.mapM fun path => return (path, ← readFile path)
  let input ←
    if invocation?.any Invocation.readsInput then
      decodeText <$> (← IO.getStdin).readBinToEnd
    else pure (.ok "")
  return { file := fun path => (Entries.get? files path).getD (.error .missing)
           input, environment, creation := ← creationNow }

def write? (save : Save) : IO (Option String) := do
  try
    IO.FS.writeFile save.path save.text
    return none
  catch e => return some (faultOf e).message

/-- What a shell reports of a program that was killed by an abort. -/
def abortedCode : Nat := 134

def Outcome.perform (outcome : Outcome) (config? : Option String) : IO UInt32 := do
  IO.print (outcome.output config?)
  let failure ← outcome.save?.elim (pure none) fun save =>
    return (← write? save).map fun reason =>
      "✗ Failed to write " ++ save.path ++ ": " ++ reason ++ "\n"
  IO.eprint (failure.getD (outcome.notice config?))
  return if failure.isSome then 1 else (outcome.exitCode.getD abortedCode).toUInt32

end EntitySchema.Command

open EntitySchema.Command in
def main (args : List String) : IO UInt32 := do
  let environment ← readEnvironment
  let config? := (environment.find? (·.1 == configVariable)).map (·.2)
  let found ← surroundings environment (parse args config?).toOption
  (run args found).perform config?
