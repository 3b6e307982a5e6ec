/-!
# Utf8 — reading bytes as text, and saying where that fails

Whether bytes are a text is core's decoder's answer. Where they are not, the fault is located by
the table of well-formed byte sequences: the lead byte fixes how many bytes follow and which
second bytes it admits, so the first byte that cannot continue ends the invalid sequence, and
input that stops inside a well-formed beginning is incomplete.

* `Utf8.Fault` — the index of the first bad sequence, and how many bytes it holds.
* `Utf8.fault?` — the first fault of a byte list.
* `Utf8.encode`, `Utf8.decode` — the bytes of a text, and the text of bytes or the fault.
-/

namespace RecordFilter.Text.Utf8

/-- Where bytes stop being text. -/
structure Fault where
  /-- The index of the first byte that begins no well-formed sequence. -/
  index : Nat
  /-- The bytes of the invalid sequence; none if the input ends inside a sequence. -/
  width : Option Nat
  deriving DecidableEq, Repr

/-- The wording of a fault. -/
def Fault.message (f : Fault) : String :=
  match f.width with
  | some n => s!"invalid utf-8 sequence of {n} bytes from index {f.index}"
  | none => s!"incomplete utf-8 byte sequence from index {f.index}"

/-- The second bytes that may follow a lead byte, with the number of bytes after the second;
none if the byte leads no sequence of several bytes. -/
def continuation? (lead : UInt8) : Option (UInt8 × UInt8 × Nat) :=
  if 0xC2 ≤ lead && lead ≤ 0xDF then some (0x80, 0xBF, 0)
  else if lead == 0xE0 then some (0xA0, 0xBF, 1)
  else if lead == 0xED then some (0x80, 0x9F, 1)
  else if 0xE1 ≤ lead && lead ≤ 0xEF then some (0x80, 0xBF, 1)
  else if lead == 0xF0 then some (0x90, 0xBF, 2)
  else if lead == 0xF4 then some (0x80, 0x8F, 2)
  else if 0xF1 ≤ lead && lead ≤ 0xF3 then some (0x80, 0xBF, 2)
  else none

/-- How a sequence can end. -/
inductive Ending where
  /-- The sequence is well formed. -/
  | complete
  /-- The byte after the first `n` does not belong to it. -/
  | broken (n : Nat)
  /-- The input ends inside it. -/
  | cut

/-- Reads the `count` plain continuation bytes that follow `seen` bytes of a sequence. -/
def followers (seen : Nat) : Nat → List UInt8 → Ending
  | 0, _ => .complete
  | _ + 1, [] => .cut
  | count + 1, b :: rest =>
    if 0x80 ≤ b && b ≤ 0xBF then followers (seen + 1) count rest else .broken seen

/-- How the sequence that `lead` begins ends in the bytes after it. -/
def ending (lead : UInt8) (rest : List UInt8) : Ending :=
  if lead < 0x80 then .complete
  else match continuation? lead, rest with
    | none, _ => .broken 1
    | some _, [] => .cut
    | some (low, high, more), b :: rest =>
      if low ≤ b && b ≤ high then followers 2 more rest else .broken 1

/-- The first fault at or after `index`. Continuation bytes of a well-formed sequence are passed
over: `skip` of them are left. -/
def faultFrom (index skip : Nat) : List UInt8 → Option Fault
  | [] => none
  | b :: rest =>
    match skip with
    | skip + 1 => faultFrom (index + 1) skip rest
    | 0 =>
      match ending b rest with
      | .complete => faultFrom (index + 1) (((continuation? b).map (·.2.2 + 1)).getD 0) rest
      | .broken n => some ⟨index, some n⟩
      | .cut => some ⟨index, none⟩

/-- The first fault of a byte list, if it is not a text. -/
def fault? (bytes : List UInt8) : Option Fault := faultFrom 0 0 bytes

/-- The bytes that encode a text. -/
def encode (s : String) : List UInt8 := s.toList.flatMap String.utf8EncodeChar

/-- The text that the bytes encode, or where they stop being text. -/
def decode (bytes : List UInt8) : Except Fault String :=
  match String.fromUTF8? ⟨bytes.toArray⟩ with
  | some s => .ok s
  | none => .error ((fault? bytes).getD ⟨0, none⟩)

end RecordFilter.Text.Utf8
