import LineDelivery.Json.Token

/-!
# The grammar of JSON

Well-formed texts as syntax trees: every choice that the grammar leaves is a field or a constructor,
from the blanks to the letter case of hexadecimal digits. A tree gives the characters of its text
and the tokens that should be read from them. Strings are sequences of characters, each spelled in
one of the ways there are, so that they all denote texts.
-/

namespace LineDelivery.Json.Grammar

inductive Blank where
  | space
  | newline
  | tab
  | carriageReturn
  deriving DecidableEq, Repr

abbrev Gap := List Blank

namespace Blank

def char : Blank → Char
  | space => ' '
  | newline => '\n'
  | tab => '\t'
  | carriageReturn => '\r'

end Blank

def gapChars (gap : Gap) : List Char :=
  gap.map Blank.char

/-! ### Numbers -/

abbrev Digit := Fin 10

/-- The digit that a character shows, zero if it shows none. -/
def Digit.ofChar (c : Char) : Digit :=
  Fin.ofNat 10 (c.toNat - '0'.toNat)

theorem Digit.ofChar_digitChar (digit : Digit) : ofChar (Nat.digitChar digit.val) = digit := by
  decide +revert

def digitChars (digits : List Digit) : List Char :=
  digits.map fun digit ↦ Nat.digitChar digit.val

/-- One digit or more. -/
structure Digits where
  first : Digit
  others : List Digit
  deriving DecidableEq, Repr

namespace Digits

def chars (digits : Digits) : List Char :=
  digitChars (digits.first :: digits.others)

end Digits

/-- The digits before the point, without a needless zero in front: a positive number is given with
its first digit less one. -/
inductive Whole where
  | zero
  | positive (first : Fin 9) (others : List Digit)
  deriving DecidableEq, Repr

namespace Whole

def digits : Whole → List Digit
  | zero => [0]
  | positive first others => first.succ :: others

def chars (whole : Whole) : List Char :=
  digitChars whole.digits

def value (whole : Whole) : Nat :=
  whole.digits.foldl (fun value digit ↦ 10 * value + digit.val) 0

/-- The literal with one more digit. -/
def push : Whole → Digit → Whole
  | zero, digit => Fin.cases zero (fun first ↦ positive first []) digit
  | positive first others, digit => positive first (others ++ [digit])

/-- The literal of a natural number. -/
def ofNat (number : Nat) : Whole :=
  ((Nat.toDigits 10 number).map Digit.ofChar).foldl push zero

theorem value_push (whole : Whole) (digit : Digit) :
    (whole.push digit).value = 10 * whole.value + digit.val := by
  cases whole with
  | zero => cases digit using Fin.cases <;> simp [push, value, digits]
  | positive first others => simp [push, value, digits]

theorem chars_push_zero (digit : Digit) :
    (zero.push digit).chars = [Nat.digitChar digit.val] := by
  cases digit using Fin.cases <;> rfl

theorem chars_push {whole : Whole} (positive : 0 < whole.value) (digit : Digit) :
    (whole.push digit).chars = whole.chars ++ [Nat.digitChar digit.val] := by
  cases whole with
  | zero => exact absurd positive (Nat.lt_irrefl 0)
  | positive first others => simp [push, chars, digits, digitChars]

theorem ofNat_of_lt {number : Nat} (small : number < 10) :
    ofNat number = zero.push ⟨number, small⟩ := by
  rw [ofNat, Nat.toDigits_of_lt_base small, List.map_singleton,
    Digit.ofChar_digitChar ⟨number, small⟩]
  rfl

theorem ofNat_of_ge {number : Nat} (large : 10 ≤ number) :
    ofNat number = (ofNat (number / 10)).push ⟨number % 10, Nat.mod_lt number (by decide)⟩ := by
  rw [ofNat, Nat.toDigits_of_base_le (by decide) large, List.map_append, List.foldl_append,
    List.map_singleton, Digit.ofChar_digitChar ⟨number % 10, _⟩]
  rfl

theorem value_ofNat (number : Nat) : (ofNat number).value = number := by
  induction number using Nat.strongRecOn with
  | ind number ih =>
    obtain small | large := Nat.lt_or_ge number 10
    · rw [ofNat_of_lt small, value_push]
      exact Nat.zero_add number
    · rw [ofNat_of_ge large, value_push, ih (number / 10) (by omega)]
      exact Nat.div_add_mod number 10

theorem chars_ofNat (number : Nat) : (ofNat number).chars = Nat.toDigits 10 number := by
  induction number using Nat.strongRecOn with
  | ind number ih =>
    obtain small | large := Nat.lt_or_ge number 10
    · rw [ofNat_of_lt small, chars_push_zero, Nat.toDigits_of_lt_base small]
    · have positive : 0 < (ofNat (number / 10)).value := by
        rw [value_ofNat]
        omega
      rw [ofNat_of_ge large, chars_push positive, ih (number / 10) (by omega),
        Nat.toDigits_of_base_le (by decide) large]

end Whole

inductive Sign where
  | plus
  | minus
  deriving DecidableEq, Repr

namespace Sign

def char : Sign → Char
  | plus => '+'
  | minus => '-'

end Sign

structure Power where
  capital : Bool
  sign? : Option Sign
  digits : Digits
  deriving DecidableEq, Repr

namespace Power

def chars (power : Power) : List Char :=
  (if power.capital then 'E' else 'e') :: (power.sign?.map Sign.char).toList ++ power.digits.chars

/-- The exponent that a reader makes of it. -/
def exponent (power : Power) : Exponent :=
  { negative := power.sign? = some .minus, digits := power.digits.chars }

end Power

structure Number where
  negative : Bool
  whole : Whole
  fraction? : Option Digits
  power? : Option Power
  deriving DecidableEq, Repr

namespace Number

def fractionChars (number : Number) : List Char :=
  number.fraction?.elim [] fun digits ↦ '.' :: digits.chars

def powerChars (number : Number) : List Char :=
  number.power?.elim [] Power.chars

def unsignedChars (number : Number) : List Char :=
  number.whole.chars ++ (number.fractionChars ++ number.powerChars)

def chars (number : Number) : List Char :=
  if number.negative then '-' :: number.unsignedChars else number.unsignedChars

/-- The numeral that a reader makes of it. -/
def numeral (number : Number) : Numeral :=
  { negative := number.negative
    whole := number.whole.chars
    fraction? := number.fraction?.map Digits.chars
    exponent? := number.power?.map Power.exponent }

/-- The value of a plain literal: no sign, no fraction and no exponent. -/
def natural? (number : Number) : Option Nat :=
  if number.negative || number.fraction?.isSome || number.power?.isSome then none
  else some number.whole.value

end Number

/-! ### Strings -/

/-- The escapes by one letter, each with the character that it stands for. -/
def letterEscapes : List (Char × Char) :=
  [('"', '"'), ('\\', '\\'), ('/', '/'), ('b', '\x08'), ('f', '\x0c'), ('n', '\n'), ('r', '\r'),
    ('t', '\t')]

def hexChar (capital : Bool) (digit : Nat) : Char :=
  if capital then (Nat.digitChar digit).toUpper else Nat.digitChar digit

/-- The escape of a code unit by four hexadecimal digits, some of them in capitals. -/
def unitChars (capital : Fin 4 → Bool) (unit : Nat) : List Char :=
  ['\\', 'u', hexChar (capital 0) (unit / 4096), hexChar (capital 1) (unit / 256 % 16),
    hexChar (capital 2) (unit / 16 % 16), hexChar (capital 3) (unit % 16)]

/-- A character is one UTF-16 code unit. -/
def isBasic (c : Char) : Bool :=
  c.toNat < 0x10000

def highSurrogate (c : Char) : Nat :=
  0xD800 + (c.toNat - 0x10000) / 0x400

def lowSurrogate (c : Char) : Nat :=
  0xDC00 + (c.toNat - 0x10000) % 0x400

/-- A character as it is written in a string: as itself, or escaped by a letter or by its code
units. -/
inductive Spelling where
  | plain (c : Char) (allowed : 0x20 ≤ c.toNat ∧ c ≠ '"' ∧ c ≠ '\\')
  | letter (sign c : Char) (listed : (sign, c) ∈ letterEscapes)
  | coded (c : Char) (first second : Fin 4 → Bool)

namespace Spelling

def denoted : Spelling → Char
  | plain c _ => c
  | letter _ c _ => c
  | coded c _ _ => c

def chars : Spelling → List Char
  | plain c _ => [c]
  | letter sign _ _ => ['\\', sign]
  | coded c first second =>
    if isBasic c then unitChars first c.toNat
    else unitChars first (highSurrogate c) ++ unitChars second (lowSurrogate c)

/-- The character as itself where that is allowed. -/
def ofChar (c : Char) : Spelling :=
  if allowed : 0x20 ≤ c.toNat ∧ c ≠ '"' ∧ c ≠ '\\' then plain c allowed
  else coded c (fun _ ↦ false) fun _ ↦ false

end Spelling

/-- A string, character by character. -/
abbrev Spelled := List Spelling

namespace Spelled

/-- What stands behind the opening quote. -/
def charsBehindQuote (spelled : Spelled) : List Char :=
  spelled.flatMap Spelling.chars ++ ['"']

def chars (spelled : Spelled) : List Char :=
  '"' :: spelled.charsBehindQuote

def text (spelled : Spelled) : String :=
  String.ofList (spelled.map Spelling.denoted)

def ofText (text : String) : Spelled :=
  text.toList.map Spelling.ofChar

end Spelled

/-! ### Values -/

mutual

inductive Value where
  | null
  | boolean (truth : Bool)
  | number (number : Number)
  | text (spelled : Spelled)
  | emptyArray (gap : Gap)
  | array (elements : Elements)
  | emptyObject (gap : Gap)
  | object (members : Members)

/-- One value or more, with commas between them and blanks around each. -/
inductive Elements where
  | last (before : Gap) (value : Value) (after : Gap)
  | more (before : Gap) (value : Value) (after : Gap) (others : Elements)

/-- One member or more, with commas between them and blanks around each key and each value. -/
inductive Members where
  | last (beforeKey : Gap) (key : Spelled) (afterKey before : Gap) (value : Value) (after : Gap)
  | more (beforeKey : Gap) (key : Spelled) (afterKey before : Gap) (value : Value) (after : Gap)
      (others : Members)

end

mutual

def Value.chars : Value → List Char
  | .null => ['n', 'u', 'l', 'l']
  | .boolean true => ['t', 'r', 'u', 'e']
  | .boolean false => ['f', 'a', 'l', 's', 'e']
  | .number number => number.chars
  | .text spelled => spelled.chars
  | .emptyArray gap => '[' :: gapChars gap ++ [']']
  | .array elements => '[' :: elements.chars ++ [']']
  | .emptyObject gap => '\x7b' :: gapChars gap ++ ['\x7d']
  | .object members => '\x7b' :: members.chars ++ ['\x7d']

def Elements.chars : Elements → List Char
  | .last before value after => gapChars before ++ (value.chars ++ gapChars after)
  | .more before value after others =>
    gapChars before ++ (value.chars ++ (gapChars after ++ ',' :: others.chars))

def Members.chars : Members → List Char
  | .last beforeKey key afterKey before value after =>
    gapChars beforeKey ++ (key.chars ++ (gapChars afterKey ++
      ':' :: (gapChars before ++ (value.chars ++ gapChars after))))
  | .more beforeKey key afterKey before value after others =>
    gapChars beforeKey ++ (key.chars ++ (gapChars afterKey ++
      ':' :: (gapChars before ++ (value.chars ++ (gapChars after ++ ',' :: others.chars)))))

end

mutual

/-- The tokens that should be read from a value. -/
def Value.tokens : Value → List Token
  | .null => [.null]
  | .boolean _ => [.boolean]
  | .number number => [.number number.numeral]
  | .text spelled => [.text (some spelled.text)]
  | .emptyArray _ => [.openBracket, .closeBracket]
  | .array elements => .openBracket :: elements.tokens ++ [.closeBracket]
  | .emptyObject _ => [.openBrace, .closeBrace]
  | .object members => .openBrace :: members.tokens ++ [.closeBrace]

def Elements.tokens : Elements → List Token
  | .last _ value _ => value.tokens
  | .more _ value _ others => value.tokens ++ .comma :: others.tokens

def Members.tokens : Members → List Token
  | .last _ key _ _ value _ => .text (some key.text) :: .colon :: value.tokens
  | .more _ key _ _ value _ others =>
    .text (some key.text) :: .colon :: (value.tokens ++ .comma :: others.tokens)

end

namespace Value

/-- The value of a plain literal. -/
def natural? : Value → Option Nat
  | .number literal => literal.natural?
  | _ => none

end Value

namespace Elements

/-- The values, in order. -/
def values : Elements → List Value
  | .last _ value _ => [value]
  | .more _ value _ others => value :: others.values

end Elements

/-- A member by the text that its key denotes, and its value. -/
abbrev Entry := String × Value

namespace Members

/-- The members, in order. -/
def entries : Members → List Entry
  | .last _ key _ _ value _ => [(key.text, value)]
  | .more _ key _ _ value _ others => (key.text, value) :: others.entries

end Members

namespace Value

/-- The values in an array. -/
def values? : Value → Option (List Value)
  | .emptyArray _ => some []
  | .array elements => some elements.values
  | _ => none

/-- The members of an object. -/
def entries? : Value → Option (List Entry)
  | .emptyObject _ => some []
  | .object members => some members.entries
  | _ => none

end Value

/-! ### Whole texts -/

/-- A text that is a single value, with blanks around it. -/
structure Document where
  before : Gap
  value : Value
  after : Gap

namespace Document

def chars (document : Document) : List Char :=
  gapChars document.before ++ (document.value.chars ++ gapChars document.after)

def text (document : Document) : String :=
  String.ofList document.chars

end Document

end LineDelivery.Json.Grammar
