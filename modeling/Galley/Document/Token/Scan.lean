import Galley.Document.Token
import Galley.Text.Bytes

/-!
# Scanning for tokens

The tokens of a text in order, each with the byte offsets at which it starts and stops. The scan
looks for the next opening braces and reads a token there. It goes on behind the token, or one byte
behind the start of the braces if there is none.
-/

namespace Galley.Document.Token

open Text (OffsetError byteLength byteLength_of_fromByte bytes findByte? fromByte hasPrefix slice)

def scopes : List Text := [scope]

/-- What a token begins with. -/
def braces : Text := "\x7b\x7b "

/-- The token of a scope and a name. -/
def writtenIn (scope name : Text) : Text := braces ++ scope ++ "." ++ name ++ closing

/-- A token in a text, with the byte offsets of its start and its end. -/
structure Found where
  scope : Text
  name : Text
  start : Nat
  stop : Nat
deriving DecidableEq, Repr

def isNameByte (b : UInt8) : Bool :=
  (48 ≤ b && b ≤ 57) || (65 ≤ b && b ≤ 90) || (97 ≤ b && b ≤ 122) || b = 95 || b = 45

def nameLength (s : Text) : Nat := ((bytes s).takeWhile isNameByte).length

/-- The scope at the start of `s`, which a dot follows. -/
def scopeAt? (s : Text) : Except OffsetError (Option Text) :=
  scopes.findM? fun scope =>
    if hasPrefix scope s then do
      let rest ← fromByte s (byteLength scope)
      return hasPrefix "." rest
    else return false

/-- The token whose braces start at a byte offset. -/
def readAt (text : Text) (start : Nat) : Except OffsetError (Option Found) := do
  let scopeStart := start + byteLength braces
  match ← scopeAt? (← fromByte text scopeStart) with
  | none => return none
  | some scope =>
    let nameStart := scopeStart + byteLength scope + 1
    let length := nameLength (← fromByte text nameStart)
    if length = 0 then return none
    let nameStop := nameStart + length
    if !hasPrefix closing (← fromByte text nameStop) then return none
    return some {
      scope := ← slice text scopeStart (scopeStart + byteLength scope)
      name := ← slice text nameStart nameStop
      start, stop := nameStop + byteLength closing }

theorem start_lt_stop {text : Text} {start : Nat} {token : Found}
    (h : readAt text start = .ok (some token)) : start < token.stop := by
  simp only [readAt, bind, Except.bind, pure, Except.pure] at h
  -- where a cut or a test fails, there is no token
  repeat (split at h; · cases h)
  cases h
  have hbraces : 0 < byteLength braces := by decide
  simp only
  omega

/-- What a scan does next. -/
inductive Step
  | finished
  | goOn (next : Nat)
  | found (token : Found)
deriving DecidableEq, Repr

/-- The next step of a scan that has come to a byte offset. -/
def step (text : Text) (offset : Nat) : Except OffsetError Step := do
  match findByte? braces (← fromByte text offset) with
  | none => return .finished
  | some ahead =>
    let start := offset + ahead
    match ← readAt text start with
    | none => return .goOn (start + 1)
    | some token => return .found token

/-- The byte offset at which the scan goes on behind a step. -/
def Step.next? : Step → Option Nat
  | finished => none
  | goOn next => some next
  | found token => some token.stop

theorem lt_of_step {text : Text} {offset next : Nat} {s : Step} (h : step text offset = .ok s)
    (hnext : s.next? = some next) : offset < next ∧ offset < byteLength text := by
  simp only [step, bind, Except.bind, pure, Except.pure] at h
  split at h
  · cases h
  · next rest hrest =>
    split at h
    · cases h
      cases hnext
    · next ahead hahead =>
      have htext := byteLength_of_fromByte hrest
      have hne : 0 < byteLength rest := by
        cases rest with
        | nil => cases hahead
        | cons c rest => exact Nat.add_pos_left c.utf8Size_pos _
      split at h
      · cases h
      · next token? htoken =>
        cases token? with
        | none =>
          cases h
          cases hnext
          exact ⟨by omega, by omega⟩
        | some token =>
          cases h
          cases hnext
          have hstop := start_lt_stop htoken
          exact ⟨by omega, by omega⟩

/-- The tokens of a text behind a byte offset. -/
def scanFrom (text : Text) (offset : Nat) : Except OffsetError (List Found) :=
  match _h : step text offset with
  | .error e => .error e
  | .ok .finished => .ok []
  | .ok (.goOn next) => scanFrom text next
  | .ok (.found token) => (scanFrom text token.stop).map (token :: ·)
termination_by byteLength text - offset
decreasing_by
  · have hforward := lt_of_step _h rfl
    omega
  · have hforward := lt_of_step _h rfl
    omega

def scan (text : Text) : Except OffsetError (List Found) := scanFrom text 0

/-- The text behind a byte offset with the tokens of known attributes, which start behind it,
replaced by their values. -/
def spliceFrom (attrs : Attributes) (text : Text) (last : Nat) :
    List Found → Except OffsetError Text
  | [] => fromByte text last
  | token :: tokens =>
    match attrs.get? token.name with
    | none => spliceFrom attrs text last tokens
    | some values => do
      let kept ← slice text last token.start
      let rest ← spliceFrom attrs text token.stop tokens
      return kept ++ attributeHtml token.name values ++ rest

end Galley.Document.Token
