import TreeStyle.Text.Quoted

/-!
# Decoding UTF-8

Files are sequences of bytes in UTF-8.  A lead byte says how many continuation
bytes follow it and, to keep out overlong forms, surrogates and code points
above U+10FFFF, which range the first of them lies in.  Decoding stops at the
first byte that cannot continue the text, and the fault names the bytes of the
unfinished character as a range of positions.

Main statement: `decode_ascii` (ASCII bytes are read as they stand).
-/

namespace TreeStyle.Text.Utf8

set_option autoImplicit false

/-- Why bytes are no text. -/
inductive Reason where
  /-- A byte that starts no character. -/
  | invalidStart
  /-- A byte that does not continue the character before it. -/
  | invalidContinuation
  /-- The bytes end inside a character. -/
  | unexpectedEnd
  deriving DecidableEq, Repr

/-- The wording of a reason. -/
def Reason.message : Reason → String
  | invalidStart => "invalid start byte"
  | invalidContinuation => "invalid continuation byte"
  | unexpectedEnd => "unexpected end of data"

/-- Where and why decoding stops: at the `length` bytes from `start` on. -/
structure Fault where
  reason : Reason
  /-- The first of the bytes. -/
  lead : UInt8
  start : Nat
  length : Nat
  deriving DecidableEq, Repr

namespace Fault

/-- The wording of a fault. -/
def message (fault : Fault) : String :=
  let place :=
    if fault.length = 1 then
      "byte 0x" ++ String.ofList (Text.hexDigits 2 fault.lead.toNat) ++ s!" in position {fault.start}"
    else s!"bytes in position {fault.start}-{fault.start + fault.length - 1}"
  "'utf-8' codec can't decode " ++ place ++ ": " ++ fault.reason.message

end Fault

/-- A character of which some bytes have been read. -/
structure Unfinished where
  /-- The lead byte, and its position. -/
  lead : UInt8
  start : Nat
  /-- The number of bytes read, the lead byte included. -/
  length : Nat
  /-- The number of continuation bytes still to come. -/
  owed : Nat
  /-- The range of the next byte. -/
  low : UInt8
  high : UInt8
  /-- The bits collected so far. -/
  code : Nat

/-- What a lead byte above ASCII promises. -/
def Unfinished.ofLead? (lead : UInt8) (position : Nat) : Option Unfinished :=
  let promise (owed : Nat) (low high : UInt8) (base : Nat) : Option Unfinished :=
    some ⟨lead, position, 1, owed, low, high, lead.toNat - base⟩
  if lead < 0xC2 then none
  else if lead < 0xE0 then promise 1 0x80 0xBF 0xC0
  else if lead = 0xE0 then promise 2 0xA0 0xBF 0xE0
  else if lead = 0xED then promise 2 0x80 0x9F 0xE0
  else if lead < 0xF0 then promise 2 0x80 0xBF 0xE0
  else if lead = 0xF0 then promise 3 0x90 0xBF 0xF0
  else if lead < 0xF4 then promise 3 0x80 0xBF 0xF0
  else if lead = 0xF4 then promise 3 0x80 0x8F 0xF0
  else none

/-- The bytes of an unfinished character as a fault. -/
def Unfinished.fault (unfinished : Unfinished) (reason : Reason) : Fault :=
  ⟨reason, unfinished.lead, unfinished.start, unfinished.length⟩

/-- The characters that bytes from a position on stand for, after the bytes of an
unfinished character if there is one. -/
def decodeFrom (position : Nat) :
    (unfinished : Option Unfinished) → List UInt8 → Except Fault (List Char)
  | none, [] => .ok []
  | some unfinished, [] => .error (unfinished.fault .unexpectedEnd)
  | none, byte :: rest =>
    if byte < 0x80 then
      (decodeFrom (position + 1) none rest).map (Char.ofNat byte.toNat :: ·)
    else
      match Unfinished.ofLead? byte position with
      | none => .error ⟨.invalidStart, byte, position, 1⟩
      | some unfinished => decodeFrom (position + 1) (some unfinished) rest
  | some unfinished, byte :: rest =>
    if byte < unfinished.low ∨ unfinished.high < byte then
      .error (unfinished.fault .invalidContinuation)
    else
      let code := 64 * unfinished.code + (byte.toNat - 0x80)
      if unfinished.owed ≤ 1 then
        (decodeFrom (position + 1) none rest).map (Char.ofNat code :: ·)
      else
        decodeFrom (position + 1)
          (some { unfinished with
            length := unfinished.length + 1, owed := unfinished.owed - 1,
            low := 0x80, high := 0xBF, code })
          rest

/-- The text that bytes stand for. -/
def decode (bytes : List UInt8) : Except Fault (List Char) := decodeFrom 0 none bytes

/-- ASCII bytes are read as they stand. -/
theorem decode_ascii {bytes : List UInt8} (ascii : ∀ byte ∈ bytes, byte < 0x80) :
    decode bytes = .ok (bytes.map fun byte => Char.ofNat byte.toNat) := by
  have from_position : ∀ position, decodeFrom position none bytes =
      .ok (bytes.map fun byte => Char.ofNat byte.toNat) := by
    induction bytes with
    | nil => intro position; rfl
    | cons byte rest ih =>
      intro position
      rw [decodeFrom, if_pos (ascii byte List.mem_cons_self),
        ih (fun other member => ascii other (List.mem_cons_of_mem _ member))]
      rfl
  exact from_position 0

end TreeStyle.Text.Utf8
