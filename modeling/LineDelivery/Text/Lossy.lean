/-!
# Lossy decoding

Bytes are read as UTF-8, and each longest run of octets that begins a character without completing
it, like each octet that begins none, becomes one replacement character.
-/

namespace LineDelivery.Text

def replacement : Char := '\uFFFD'

/-- A character whose first octets were read: the bits so far, how many octets are owed, and the
range of the next one. -/
structure Partial where
  bits : Nat
  owed : Nat
  low : Nat
  high : Nat

inductive Lead where
  | whole (c : Char)
  | begun (rest : Partial)
  | none

/-- What an octet between characters begins; it also narrows the range of the second octet, which
keeps out overlong forms, surrogates and code points that are too large. -/
def Lead.ofOctet (octet : Nat) : Lead :=
  if octet < 0x80 then .whole (Char.ofNat octet)
  else if octet < 0xC2 then .none
  else if octet < 0xE0 then .begun ⟨octet - 0xC0, 1, 0x80, 0xBF⟩
  else if octet < 0xF0 then
    let low := if octet = 0xE0 then 0xA0 else 0x80
    let high := if octet = 0xED then 0x9F else 0xBF
    .begun ⟨octet - 0xE0, 2, low, high⟩
  else if octet < 0xF5 then
    let low := if octet = 0xF0 then 0x90 else 0x80
    let high := if octet = 0xF4 then 0x8F else 0xBF
    .begun ⟨octet - 0xF0, 3, low, high⟩
  else .none

/-- Where decoding stands: the characters so far, the newest first, and a character begun. -/
structure Decoding where
  newestFirst : List Char
  begun? : Option Partial

namespace Decoding

def push (decoding : Decoding) (c : Char) : Decoding :=
  { newestFirst := c :: decoding.newestFirst, begun? := none }

/-- Gives up a character that was begun. -/
def abandon (decoding : Decoding) : Decoding :=
  if decoding.begun?.isSome then decoding.push replacement else decoding

def lead (decoding : Decoding) (octet : Nat) : Decoding :=
  match Lead.ofOctet octet with
  | .whole c => decoding.push c
  | .begun rest => { decoding with begun? := some rest }
  | .none => decoding.push replacement

def step (decoding : Decoding) (octet : Nat) : Decoding :=
  match decoding.begun? with
  | none => decoding.lead octet
  | some rest =>
    if rest.low ≤ octet ∧ octet ≤ rest.high then
      let bits := rest.bits * 64 + (octet - 0x80)
      if rest.owed = 1 then decoding.push (Char.ofNat bits)
      else { decoding with begun? := some ⟨bits, rest.owed - 1, 0x80, 0xBF⟩ }
    else decoding.abandon.lead octet

end Decoding

def decodeLossy (octets : List UInt8) : String :=
  let start : Decoding := { newestFirst := [], begun? := none }
  let decoding := octets.foldl (fun decoding octet ↦ Decoding.step decoding octet.toNat) start
  String.ofList decoding.abandon.newestFirst.reverse

end LineDelivery.Text
