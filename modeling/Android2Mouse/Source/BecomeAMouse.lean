import Android2Mouse.Source.ApplyProfile

/-!
# The toggle (`MainActivity.java` of `becomeAMouse`)

The app runs `bmouse` through `su`, keeps the text that `multi` prints and hands it to
`phone` later. Text is its list of bytes; `readLine` turns each byte into a character.
That `su -c` runs the words after it as a command is what the app relies on. Logging
and I/O errors are left out.
-/
namespace Android2Mouse.Source.BecomeAMouse
open Library Library.Strtol SelfRepr ApplyProfile

/-! ## Running a command -/

/-- What `bmouse` prints on its standard output. -/
def stdout : Exit → List UInt8
  | .success (some printed) => literal ['0', 'x'] ++ numeral 16 printed.toNat ++ [10]
  | .success none => []
  | .error _ => []
  | .failure => []

/-- The delimiters with which `exec` cuts a command into words. -/
def isDelimiter (b : UInt8) : Bool := b = 32 ∨ b = 9 ∨ b = 10 ∨ b = 13 ∨ b = 12

/-- The words of a command. -/
def tokens (command : List UInt8) : List (List UInt8) :=
  (command.splitOnP isDelimiter).filter (· ≠ [])

/-- The next line without its terminator, and what follows it. -/
def readLine : List UInt8 → List UInt8 × List UInt8
  | [] => ([], [])
  | 10 :: rest => ([], rest)
  | 13 :: 10 :: rest => ([], rest)
  | 13 :: rest => ([], rest)
  | b :: rest =>
    let (line, rest) := readLine rest
    (b :: line, rest)

/-- The loop that puts the lines together, with a bound on their number. -/
def readLines : ℕ → List UInt8 → List UInt8
  | 0, _ => []
  | _ + 1, [] => []
  | bound + 1, text =>
    let (line, rest) := readLine text
    line ++ readLines bound rest

def bmouse : List UInt8 := literal ['/', 'd', 'a', 't', 'a', '/', 'b', 'm', 'o', 'u', 's', 'e']

/-- Every line takes a byte, so that the text bounds their number. -/
def becameA (who old : List UInt8) (replies : Replies) : Attempt LibCall (List UInt8) := do
  let command := literal ['s', 'u'] ++ 32 :: (literal ['-', 'c'] ++ 32 ::
    (bmouse ++ 32 :: (who ++ 32 :: old)))
  let exit ← main ((tokens command).drop 2) replies
  return readLines (stdout exit).length (stdout exit)

/-! ## The activity -/

/-- The shared preferences. -/
structure Preferences where
  sdpRecord : Option (List UInt8)
  mouceMode : Bool
  deriving DecidableEq, Repr

/-- `onToggleClicked` -/
def onToggleClicked (on : Bool) (prefs : Preferences) (replies : Replies) :
    Attempt LibCall Preferences := do
  if on then
    let old ← becameA (literal ['m', 'u', 'l', 't', 'i']) [] replies
    return ⟨some old, true⟩
  else
    let old := prefs.sdpRecord.getD []
    let _ ← becameA (literal ['p', 'h', 'o', 'n', 'e']) old replies
    return prefs

end Android2Mouse.Source.BecomeAMouse
