/-!
# Numerals

The numbers of a JSON text: an optional minus, whole digits without a needless zero in front, and an
optional fraction and exponent. Only a numeral without any of the three optional parts is a natural
number. A numeral whose nearest double-precision number is infinite is told apart too; for that the
digits are taken into a 64-bit word as long as they fit and dropped from there on.
-/

namespace LineDelivery.Json

structure Exponent where
  negative : Bool
  digits : List Char
  deriving DecidableEq, Repr

structure Numeral where
  negative : Bool
  whole : List Char
  /-- The digits behind the point, if there is one. -/
  fraction? : Option (List Char)
  exponent? : Option Exponent
  deriving DecidableEq, Repr

namespace Numeral

def digitsValue (digits : List Char) : Nat :=
  Nat.ofDigitChars 10 digits 0

/-- The value of a plain numeral. -/
def natural? (numeral : Numeral) : Option Nat :=
  if numeral.negative || numeral.fraction?.isSome || numeral.exponent?.isSome then none
  else some (digitsValue numeral.whole)

/-- Digits taken into a word, with the power of ten that makes up for the point and for digits that
were dropped. -/
structure Scaled where
  word : Nat
  power : Int
  /-- Digits behind the point no longer fit. -/
  full : Bool

namespace Scaled

def taking (scaled : Scaled) (c : Char) : Nat :=
  Nat.ofDigitChars 10 [c] scaled.word

/-- Takes a digit before the point; once one does not fit, all others count as zeros. -/
def takeWhole (scaled : Scaled) (c : Char) : Scaled :=
  if scaled.power = 0 ∧ scaled.taking c < Nat.pow 2 64 then { scaled with word := scaled.taking c }
  else { scaled with power := scaled.power + 1 }

/-- Takes a digit behind the point; once one does not fit, all others are dropped. -/
def takeFraction (scaled : Scaled) (c : Char) : Scaled :=
  if scaled.full then scaled
  else if scaled.taking c < Nat.pow 2 64 then
    { scaled with word := scaled.taking c, power := scaled.power - 1 }
  else { scaled with full := true }

end Scaled

def scaled (numeral : Numeral) : Scaled :=
  let whole := numeral.whole.foldl Scaled.takeWhole { word := 0, power := 0, full := false }
  (numeral.fraction?.getD []).foldl Scaled.takeFraction whole

def exponentValue (numeral : Numeral) : Int :=
  match numeral.exponent? with
  | none => 0
  | some exponent =>
    if exponent.negative then -(digitsValue exponent.digits : Int) else digitsValue exponent.digits

/-- A natural number rounded to 53 binary digits, a half going to the even neighbour. -/
def roundToDouble (n : Nat) : Nat :=
  let unit := Nat.pow 2 (n.log2 - 52)
  let down := n / unit
  let twiceRest := 2 * (n % unit)
  let up := unit < twiceRest || (unit == twiceRest && down % 2 == 1)
  (if up then down + 1 else down) * unit

/-- The greatest power of ten that is a finite double. -/
def greatestPower : Int := 308

/-- The nearest double of the numeral is finite. -/
def isFinite (numeral : Numeral) : Bool :=
  let scaled := numeral.scaled
  let power := scaled.power + numeral.exponentValue
  if scaled.word = 0 ∨ power < 0 then true
  else if greatestPower < power then false
  else
    roundToDouble (roundToDouble scaled.word * roundToDouble (Nat.pow 10 power.toNat)) <
      Nat.pow 2 1024

/-- Digits from the front of a text, and what follows them. -/
def takeDigits (text : List Char) : List Char × List Char :=
  (text.takeWhile Char.isDigit, text.dropWhile Char.isDigit)

/-- The whole digits at the front of a text; zero stands alone. -/
def takeWhole? (text : List Char) : Option (List Char × List Char) :=
  match takeDigits text with
  | ([], _) => none
  | ('0' :: _ :: _, _) => none
  | (digits, rest) => some (digits, rest)

def takeFraction? (text : List Char) : Option (Option (List Char) × List Char) :=
  match text with
  | '.' :: rest =>
    match takeDigits rest with
    | ([], _) => none
    | (digits, rest) => some (some digits, rest)
  | _ => some (none, text)

def takeSign (text : List Char) : Bool × List Char :=
  match text with
  | '-' :: rest => (true, rest)
  | '+' :: rest => (false, rest)
  | _ => (false, text)

def takeExponentDigits? (text : List Char) : Option (Option Exponent × List Char) :=
  let (negative, rest) := takeSign text
  match takeDigits rest with
  | ([], _) => none
  | (digits, rest) => some (some { negative, digits }, rest)

def takeExponent? (text : List Char) : Option (Option Exponent × List Char) :=
  match text with
  | 'e' :: rest => takeExponentDigits? rest
  | 'E' :: rest => takeExponentDigits? rest
  | _ => some (none, text)

/-- The longest numeral at the front of a text, without its minus, and what follows it. -/
def takeUnsigned? (negative : Bool) (text : List Char) : Option (Numeral × List Char) := do
  let (whole, rest) ← takeWhole? text
  let (fraction?, rest) ← takeFraction? rest
  let (exponent?, rest) ← takeExponent? rest
  some ({ negative, whole, fraction?, exponent? }, rest)

/-- The longest numeral at the front of a text, and what follows it. -/
def take? (text : List Char) : Option (Numeral × List Char) :=
  match text with
  | '-' :: rest => takeUnsigned? true rest
  | _ => takeUnsigned? false text

theorem length_takeDigits (text : List Char) : (takeDigits text).2.length ≤ text.length :=
  (List.dropWhile_suffix _).length_le

theorem length_takeWhole {text digits rest : List Char}
    (h : takeWhole? text = some (digits, rest)) : rest.length < text.length := by
  unfold takeWhole? takeDigits at h
  have split : (text.takeWhile Char.isDigit).length + (text.dropWhile Char.isDigit).length =
      text.length := by
    rw [← List.length_append, List.takeWhile_append_dropWhile]
  cases hd : text.takeWhile Char.isDigit with
  | nil => simp [hd] at h
  | cons c cs =>
    have remains : rest = text.dropWhile Char.isDigit := by
      rw [hd] at h
      split at h <;> simp_all
    simp only [hd, List.length_cons] at split
    rw [remains]
    omega

theorem length_takeFraction {text rest : List Char} {fraction? : Option (List Char)}
    (h : takeFraction? text = some (fraction?, rest)) : rest.length ≤ text.length := by
  unfold takeFraction? at h
  split at h
  · rename_i tail
    have := length_takeDigits tail
    split at h <;> simp_all
    omega
  · simp_all

theorem length_takeExponentDigits {text rest : List Char} {exponent? : Option Exponent}
    (h : takeExponentDigits? text = some (exponent?, rest)) : rest.length ≤ text.length := by
  unfold takeExponentDigits? at h
  have sign : (takeSign text).2.length ≤ text.length := by
    unfold takeSign
    split <;> simp
  have digits := length_takeDigits (takeSign text).2
  simp only at h
  split at h <;> simp_all
  omega

theorem length_takeExponent {text rest : List Char} {exponent? : Option Exponent}
    (h : takeExponent? text = some (exponent?, rest)) : rest.length ≤ text.length := by
  unfold takeExponent? at h
  split at h
  · have := length_takeExponentDigits h
    simp only [List.length_cons]
    omega
  · have := length_takeExponentDigits h
    simp only [List.length_cons]
    omega
  · simp_all

theorem length_takeUnsigned {negative : Bool} {text rest : List Char} {numeral : Numeral}
    (h : takeUnsigned? negative text = some (numeral, rest)) : rest.length < text.length := by
  simp only [takeUnsigned?, Option.bind_eq_bind, Option.bind_eq_some_iff, Prod.exists,
    Option.some.injEq, Prod.mk.injEq] at h
  obtain ⟨_, _, hw, _, _, hf, _, _, he, _, rfl⟩ := h
  have := length_takeWhole hw
  have := length_takeFraction hf
  have := length_takeExponent he
  omega

theorem length_take {text rest : List Char} {numeral : Numeral}
    (h : take? text = some (numeral, rest)) : rest.length < text.length := by
  unfold take? at h
  split at h
  · have := length_takeUnsigned h
    simp only [List.length_cons]
    omega
  · exact length_takeUnsigned h

end Numeral

end LineDelivery.Json
