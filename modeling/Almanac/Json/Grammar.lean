import Almanac.Json.Skip

/-!
The grammar of the data format, apart from its readers: how a string can be spelled, and which texts
are numbers and values. Between two signs any space may stand. `Bracketed` is the form of lists and
objects alike, and says where their items are.
-/

namespace Almanac.Json

/-- Space between two signs. -/
structure Spaces where
  chars : List Char
  isSpace : chars.all isSpace

def Spaces.none : Spaces := ⟨[], rfl⟩

/-! ### Strings -/

/-- The characters behind a backslash, each with the one it stands for. -/
def shortEscapes : List (Char × Char) :=
  [('"', '"'), ('\\', '\\'), ('/', '/'), ('b', '\x08'), ('f', '\x0c'), ('n', '\n'), ('r', '\r'),
    ('t', '\t')]

/-- A hexadecimal digit, as a letter in either case. -/
def IsHexDigit (d : Nat) (c : Char) : Prop := d < 16 ∧ (c = d.digitChar ∨ c = d.digitChar.toUpper)

/-- The four digits of a code unit. -/
inductive CodeUnit : Nat → List Char → Prop
  | mk {n d₁ d₂ d₃ d₄ : Nat} {c₁ c₂ c₃ c₄ : Char} (h₁ : IsHexDigit d₁ c₁) (h₂ : IsHexDigit d₂ c₂)
    (h₃ : IsHexDigit d₃ c₃) (h₄ : IsHexDigit d₄ c₄)
    (hn : n = 0x1000 * d₁ + 0x100 * d₂ + 0x10 * d₃ + d₄) : CodeUnit n [c₁, c₂, c₃, c₄]

/-- A character as itself or behind a backslash. -/
inductive Simple : Char → List Char → Prop
  | plain {c : Char} (hquote : c ≠ '"') (hslash : c ≠ '\\') (hcontrol : 0x20 ≤ c.toNat) :
    Simple c [c]
  | escaped {e c : Char} (h : (e, c) ∈ shortEscapes) : Simple c ['\\', e]

/-- A text between quotes. Its code units need not be those of characters. -/
inductive Letters : List Char → Prop
  | nil : Letters []
  | simple {c : Char} {letter cs : List Char} (h : Simple c letter) (htail : Letters cs) :
    Letters (letter ++ cs)
  | unit {n : Nat} {digits cs : List Char} (h : CodeUnit n digits) (htail : Letters cs) :
    Letters ('\\' :: 'u' :: (digits ++ cs))

/-- What a text between quotes stands for. A character beyond the basic plane can be written as a
pair of surrogates. -/
inductive Spells : List Char → List Char → Prop
  | nil : Spells [] []
  | simple {c : Char} {s letter cs : List Char} (h : Simple c letter) (htail : Spells s cs) :
    Spells (c :: s) (letter ++ cs)
  | unit {c : Char} {s digits cs : List Char} (h : CodeUnit c.toNat digits) (htail : Spells s cs) :
    Spells (c :: s) ('\\' :: 'u' :: (digits ++ cs))
  | pair {c : Char} {high low : Nat} {s digits digits' cs : List Char}
    (hhigh : 0xD800 ≤ high ∧ high < 0xDC00) (hlow : 0xDC00 ≤ low ∧ low < 0xE000)
    (hc : c.toNat = 0x10000 + (high - 0xD800) * 0x400 + (low - 0xDC00))
    (h : CodeUnit high digits) (h' : CodeUnit low digits') (htail : Spells s cs) :
    Spells (c :: s) ('\\' :: 'u' :: (digits ++ '\\' :: 'u' :: (digits' ++ cs)))

def quote (body : List Char) : List Char := '"' :: (body ++ ['"'])

/-- A string of the format and the text it stands for. -/
def IsText (s : String) (cs : List Char) : Prop := ∃ body, Spells s.toList body ∧ cs = quote body

/-- A string, or `null` where there is none. -/
def IsOptionalText (text : Option String) (cs : List Char) : Prop :=
  match text with
  | none => cs = "null".toList
  | some s => IsText s cs

/-! ### Numbers -/

def Digits (ds : List Char) : Prop := ds ≠ [] ∧ ds.all Char.isDigit

/-- A zero in front of other digits is no whole number. -/
def Whole (ds : List Char) : Prop := Digits ds ∧ (ds.head? = some '0' → ds = ['0'])

inductive Fraction : List Char → Prop
  | none : Fraction []
  | some {ds : List Char} (h : Digits ds) : Fraction ('.' :: ds)

inductive Exponent : List Char → Prop
  | none : Exponent []
  | some {letter : Char} {sign ds : List Char} (hletter : letter = 'e' ∨ letter = 'E')
    (hsign : sign = [] ∨ sign = ['+'] ∨ sign = ['-']) (h : Digits ds) :
    Exponent (letter :: (sign ++ ds))

inductive Numeral : List Char → Prop
  | mk {sign whole fraction exponent : List Char} (hsign : sign = [] ∨ sign = ['-'])
    (hwhole : Whole whole) (hfraction : Fraction fraction) (hexponent : Exponent exponent) :
    Numeral (sign ++ (whole ++ (fraction ++ exponent)))

/-! ### Lists, objects and values -/

def Bracket.opening : Bracket → Char
  | list => '['
  | object => '{'

/-- What follows an item: further items, each behind a comma, up to the closing bracket. -/
inductive ItemsAfter (b : Bracket) : List (List Char) → List Char → Prop
  | nil (spaces : Spaces) : ItemsAfter b [] (spaces.chars ++ [b.closing])
  | cons (spaces spaces' : Spaces) {item : List Char} {items : List (List Char)} {cs : List Char}
    (h : ItemsAfter b items cs) :
    ItemsAfter b (item :: items) (spaces.chars ++ ',' :: (spaces'.chars ++ (item ++ cs)))

/-- Items between brackets. -/
inductive Bracketed (b : Bracket) : List (List Char) → List Char → Prop
  | nil (spaces : Spaces) : Bracketed b [] (b.opening :: (spaces.chars ++ [b.closing]))
  | cons (spaces : Spaces) {item : List Char} {items : List (List Char)} {cs : List Char}
    (h : ItemsAfter b items cs) :
    Bracketed b (item :: items) (b.opening :: (spaces.chars ++ (item ++ cs)))

/-- A member of an object as it is written; the name stands between quotes. -/
structure MemberText where
  name : List Char
  beforeColon : Spaces
  afterColon : Spaces
  value : List Char

namespace MemberText

def chars (m : MemberText) : List Char :=
  quote m.name ++ (m.beforeColon.chars ++ ':' :: (m.afterColon.chars ++ m.value))

/-- What is unread behind the name. -/
def afterName (m : MemberText) (rest : List Char) : List Char :=
  m.beforeColon.chars ++ ':' :: (m.afterColon.chars ++ (m.value ++ rest))

theorem chars_append (m : MemberText) (rest : List Char) :
    m.chars ++ rest = '"' :: (m.name ++ '"' :: m.afterName rest) := by
  simp [chars, afterName, quote]

def Names (m : MemberText) (name : String) : Prop := Spells name.toList m.name

end MemberText

def IsObject (members : List MemberText) (cs : List Char) : Prop :=
  Bracketed .object (members.map MemberText.chars) cs

def words : List (List Char) := ["null", "true", "false"].map String.toList

/-- Any value, of any size and depth. -/
inductive Value : List Char → Prop
  | word {cs : List Char} (h : cs ∈ words) : Value cs
  | number {cs : List Char} (h : Numeral cs) : Value cs
  | text {body : List Char} (h : Letters body) : Value (quote body)
  | list {items : List (List Char)} {cs : List Char} (h : Bracketed .list items cs)
    (hitems : ∀ item ∈ items, Value item) : Value cs
  | object {members : List MemberText} {cs : List Char} (h : IsObject members cs)
    (hnames : ∀ m ∈ members, Letters m.name) (hvalues : ∀ m ∈ members, Value m.value) : Value cs

end Almanac.Json
