/-!
# Quoted text

The strings of a JSON text. An escape may give a UTF-16 code unit by its four hexadecimal digits;
two units that make a surrogate pair are one character, and a surrogate without its partner is none,
so that such a string is well-formed but denotes no text.
-/

namespace LineDelivery.Json.Quoted

inductive Piece where
  | char (c : Char)
  | codeUnit (unit : Nat)
  deriving DecidableEq, Repr

def hexDigit? (c : Char) : Option Nat :=
  if c.isDigit then some (c.toNat - '0'.toNat)
  else if 'a' ≤ c ∧ c ≤ 'f' then some (c.toNat - 'a'.toNat + 10)
  else if 'A' ≤ c ∧ c ≤ 'F' then some (c.toNat - 'A'.toNat + 10)
  else none

def codeUnit? (a b c d : Char) : Option Nat := do
  let a ← hexDigit? a
  let b ← hexDigit? b
  let c ← hexDigit? c
  let d ← hexDigit? d
  some (((a * 16 + b) * 16 + c) * 16 + d)

/-- The character that an escape letter stands for. -/
def escaped? : Char → Option Char
  | '"' => some '"'
  | '\\' => some '\\'
  | '/' => some '/'
  | 'b' => some '\x08'
  | 'f' => some '\x0c'
  | 'n' => some '\n'
  | 'r' => some '\r'
  | 't' => some '\t'
  | _ => none

def isControl (c : Char) : Bool :=
  c.toNat < 0x20

/-- Reads up to the closing quote, from behind the opening one. -/
def take? : List Char → Option (List Piece × List Char)
  | [] => none
  | '"' :: rest => some ([], rest)
  | '\\' :: 'u' :: a :: b :: c :: d :: rest => do
    let unit ← codeUnit? a b c d
    let (pieces, rest) ← take? rest
    some (.codeUnit unit :: pieces, rest)
  | '\\' :: letter :: rest => do
    let c ← escaped? letter
    let (pieces, rest) ← take? rest
    some (.char c :: pieces, rest)
  | c :: rest =>
    if isControl c then none
    else do
      let (pieces, rest) ← take? rest
      some (.char c :: pieces, rest)

def isHighSurrogate (unit : Nat) : Bool :=
  0xD800 ≤ unit && unit < 0xDC00

def isLowSurrogate (unit : Nat) : Bool :=
  0xDC00 ≤ unit && unit < 0xE000

def joinSurrogates (high low : Nat) : Char :=
  Char.ofNat (0x10000 + (high - 0xD800) * 0x400 + (low - 0xDC00))

/-- The characters that pieces denote, if every surrogate has its partner. -/
def chars? : List Piece → Option (List Char)
  | [] => some []
  | .char c :: rest => (chars? rest).map (c :: ·)
  | .codeUnit high :: .codeUnit low :: rest =>
    if isHighSurrogate high then
      if isLowSurrogate low then (chars? rest).map (joinSurrogates high low :: ·) else none
    else if isLowSurrogate high then none
    else (chars? (.codeUnit low :: rest)).map (Char.ofNat high :: ·)
  | .codeUnit unit :: rest =>
    if isHighSurrogate unit || isLowSurrogate unit then none
    else (chars? rest).map (Char.ofNat unit :: ·)

def text? (pieces : List Piece) : Option String :=
  (chars? pieces).map String.ofList

theorem length_take {text rest : List Char} {pieces : List Piece}
    (h : take? text = some (pieces, rest)) : rest.length < text.length := by
  fun_induction take? text generalizing pieces rest with
  | case1 => simp at h
  | case2 tail =>
    simp only [Option.some.injEq, Prod.mk.injEq] at h
    simp [← h.2]
  | case3 a b c d tail ih =>
    simp only [Option.bind_eq_bind, Option.bind_eq_some_iff, Prod.exists, Option.some.injEq,
      Prod.mk.injEq] at h
    obtain ⟨_, _, _, _, hr, _, rfl⟩ := h
    have := ih hr
    simp only [List.length_cons]
    omega
  | case4 letter tail _ ih =>
    simp only [Option.bind_eq_bind, Option.bind_eq_some_iff, Prod.exists, Option.some.injEq,
      Prod.mk.injEq] at h
    obtain ⟨_, _, _, _, hr, _, rfl⟩ := h
    have := ih hr
    simp only [List.length_cons]
    omega
  | case5 => simp at h
  | case6 c tail _ _ _ _ ih =>
    simp only [Option.bind_eq_bind, Option.bind_eq_some_iff, Prod.exists, Option.some.injEq,
      Prod.mk.injEq] at h
    obtain ⟨_, _, hr, _, rfl⟩ := h
    have := ih hr
    simp only [List.length_cons]
    omega

end LineDelivery.Json.Quoted
