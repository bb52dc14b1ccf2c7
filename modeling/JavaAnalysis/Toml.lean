/-!
# TOML values

A document is a table: keys with values, in the order in which they were written. How a table came
to be decides whether later lines of the document may still add to it.
-/

set_option autoImplicit false

namespace JavaAnalysis

/-- How a table came to be. -/
inductive TableOrigin where
  /-- Written in braces; it is complete. -/
  | inline
  /-- Started by a header of its own. -/
  | header
  /-- Named in the header of a table inside it. -/
  | implied
  /-- Named in a key with dots. -/
  | dotted
deriving DecidableEq, Repr, Inhabited

inductive Toml where
  | string (s : String)
  | integer (i : Int)
  | float (text : String)
  | boolean (b : Bool)
  | dateTime (text : String)
  /-- Written in brackets; it is complete. -/
  | array (items : List Toml)
  | table (origin : TableOrigin) (entries : List (String × Toml))
  /-- Tables that are started one after the other by headers in double brackets. -/
  | tables (items : List Toml)
deriving Repr, Inhabited

namespace Toml

/-- The keys and values of a table. -/
abbrev Entries := List (String × Toml)

/-- The items of an array, however it is written. -/
def items? : Toml → Option (List Toml)
  | array items => some items
  | tables items => some items
  | _ => none

def entries? : Toml → Option Entries
  | table _ entries => some entries
  | _ => none

def string? : Toml → Option String
  | string s => some s
  | _ => none

/-- Puts a value in the place of the one with the same key, or behind all others. -/
def assign (key : String) (value : Toml) : Entries → Entries
  | [] => [(key, value)]
  | (k, v) :: entries =>
    if k = key then (key, value) :: entries else (k, v) :: assign key value entries

/-- Applies a change to the last of some tables. -/
def changeLast (f : Entries → Option Entries) (items : List Toml) : Option (List Toml) :=
  match items.getLast? with
  | some (table origin entries) => do return items.dropLast ++ [table origin (← f entries)]
  | _ => none

/--
Changes the table at the path of a header. Tables that are missing on the way are implied, and of
tables started one after the other the last is meant.
-/
def changeAt (f : Entries → Option Entries) : List String → Entries → Option Entries
  | [], entries => f entries
  | key :: path, entries => do
    let value ← match entries.lookup key with
      | none => (table .implied ·) <$> changeAt f path []
      | some (table .inline _) => none
      | some (table origin inner) => (table origin ·) <$> changeAt f path inner
      | some (tables items) => tables <$> changeLast (changeAt f path) items
      | some _ => none
    return assign key value entries

/--
Adds a key with dots and its value. The table that gets the value must come from a key with dots
itself; those on the way may also be implied by headers.
-/
def addKey (value : Toml) (last : String) : List String → Entries → Option Entries
  | [], entries =>
    if (entries.lookup last).isSome then none else some (entries ++ [(last, value)])
  | key :: path, entries => do
    let inner ← match entries.lookup key with
      | none => (table .dotted ·) <$> addKey value last path []
      | some (table .dotted inner) => (table .dotted ·) <$> addKey value last path inner
      | some (table .implied inner) =>
        if path.isEmpty then none else (table .implied ·) <$> addKey value last path inner
      | some (tables items) =>
        if path.isEmpty then none else tables <$> changeLast (addKey value last path) items
      | some _ => none
    return assign key inner entries

/-- Starts a table by a header; it may only be implied so far. -/
def startTable (key : String) (entries : Entries) : Option Entries :=
  match entries.lookup key with
  | none => some (entries ++ [(key, table .header [])])
  | some (table .implied inner) => some (assign key (table .header inner) entries)
  | some _ => none

/-- Starts one more of some tables by a header in double brackets. -/
def startNext (key : String) (entries : Entries) : Option Entries :=
  match entries.lookup key with
  | none => some (entries ++ [(key, tables [table .header []])])
  | some (tables items) => some (assign key (tables (items ++ [table .header []])) entries)
  | some _ => none

end Toml

end JavaAnalysis

/-!
## Values in TOML

A number, a date or a truth value is a word without quotes. Each kind of word is recognized as a
whole. Text in quotes is on one line, or in tripled quotes on many. Between double quotes a
backslash starts an escape, between single quotes there are none.
-/

namespace JavaAnalysis.Toml

/-- Digits with underscores between them, which are left out of the result. -/
def digits? (isDigit : Char → Bool) : List Char → Option (List Char)
  | [] => none
  | [c] => if isDigit c then some [c] else none
  | c :: '_' :: cs => if isDigit c then (digits? isDigit cs).map (c :: ·) else none
  | c :: cs => if isDigit c then (digits? isDigit cs).map (c :: ·) else none

/-- The value of a digit up to `f`. -/
def digitValue? (c : Char) : Option Nat :=
  if c.isDigit then some (c.toNat - '0'.toNat)
  else if 'a' ≤ c ∧ c ≤ 'f' then some (c.toNat - 'a'.toNat + 10)
  else if 'A' ≤ c ∧ c ≤ 'F' then some (c.toNat - 'A'.toNat + 10)
  else none

/-- The character is a digit to the given base. -/
def isDigitTo (base : Nat) (c : Char) : Bool := (digitValue? c).any (· < base)

/-- The number that digits to a base stand for. -/
def valueTo (base : Nat) (cs : List Char) : Nat :=
  cs.foldl (fun n c => base * n + (digitValue? c).getD 0) 0

/-- A number without its sign. -/
def unsigned : List Char → List Char
  | '+' :: cs => cs
  | '-' :: cs => cs
  | cs => cs

/-- The digits of a decimal number, without a zero in front of others. -/
def decimal? (cs : List Char) : Option (List Char) :=
  match digits? Char.isDigit cs with
  | some ('0' :: _ :: _) => none
  | digits => digits

/-- An integer has sixty-four bits, one of them for its sign; this is the first that has more. -/
def integerBound : Int := 9223372036854775808

def inRange? (i : Int) : Option Toml :=
  if -integerBound ≤ i ∧ i < integerBound then some (integer i) else none

/-- An integer to a base that is named by the characters in front. -/
def prefixed? (base : Nat) (cs : List Char) : Option Toml := do
  inRange? (valueTo base (← digits? (isDigitTo base) cs))

def integer? : List Char → Option Toml
  | '0' :: 'x' :: cs => prefixed? 16 cs
  | '0' :: 'o' :: cs => prefixed? 8 cs
  | '0' :: 'b' :: cs => prefixed? 2 cs
  | cs => do
    let n := valueTo 10 (← decimal? (unsigned cs))
    inRange? (if cs.head? = some '-' then -n else n)

/-- The exponent of a number, from behind its letter. -/
def exponent? (cs : List Char) : Option Int := do
  let n := valueTo 10 (← digits? Char.isDigit (unsigned cs))
  return if cs.head? = some '-' then -n else n

/-- From half a unit beyond the greatest double on, a number counts as infinite. -/
def infiniteFrom : Nat := 1 <<< 1024 - 1 <<< 970

/-- The decimal number of the given digits and exponent is too great for a double. -/
def isTooGreat (digits : List Char) (exponent : Int) : Bool :=
  let digits := digits.dropWhile (· == '0')
  let size := exponent + digits.length
  if digits.isEmpty || size ≤ 300 then false
  else if 320 ≤ size then true
  else
    decide (infiniteFrom * Nat.pow 10 (-exponent).toNat ≤
      valueTo 10 digits * Nat.pow 10 exponent.toNat)

/-- A number with a fraction or an exponent. -/
def decimalFloat? (cs : List Char) : Option Toml := do
  let body := unsigned cs
  let (mantissa, power) := body.span fun c => c != 'e' && c != 'E'
  let (whole, fraction) := mantissa.span (· != '.')
  if fraction.isEmpty && power.isEmpty then none
  let wholeDigits ← decimal? whole
  let fractionDigits ← if fraction.isEmpty then some [] else digits? Char.isDigit fraction.tail
  let exponent ← if power.isEmpty then some 0 else exponent? power.tail
  let scaled := exponent - fractionDigits.length
  if cs.head? ≠ some '-' ∧ isTooGreat (wholeDigits ++ fractionDigits) scaled then none
  else return float (String.ofList cs)

/-- A floating-point number. -/
def float? (cs : List Char) : Option Toml :=
  match String.ofList (unsigned cs) with
  | "inf" | "nan" => some (float (String.ofList cs))
  | _ => decimalFloat? cs

/-- The value of two digits, if it is at most `most`. -/
def twoDigits? (a b : Char) (most : Nat) : Option Nat :=
  if a.isDigit && b.isDigit && valueTo 10 [a, b] ≤ most then some (valueTo 10 [a, b]) else none

/-- The number of days of a month. -/
def daysIn (year month : Nat) : Nat :=
  let leap := year % 4 == 0 && (year % 100 != 0 || year % 400 == 0)
  match month with
  | 2 => if leap then 29 else 28
  | 4 | 6 | 9 | 11 => 30
  | _ => 31

/-- Reads a date, and returns what follows it. -/
def afterDate? : List Char → Option (List Char)
  | a :: b :: c :: d :: '-' :: e :: f :: '-' :: g :: h :: rest => do
    if [a, b, c, d].any fun x => !x.isDigit then none
    let month ← twoDigits? e f 12
    let day ← twoDigits? g h 31
    if 1 ≤ month ∧ 1 ≤ day ∧ day ≤ daysIn (valueTo 10 [a, b, c, d]) month then some rest else none
  | _ => none

/-- Leaves out the fraction of a second. -/
def afterFraction? : List Char → Option (List Char)
  | '.' :: c :: cs => if c.isDigit then some (cs.dropWhile Char.isDigit) else none
  | '.' :: [] => none
  | cs => some cs

/-- Reads a time of day, and returns what follows it. -/
def afterTime? : List Char → Option (List Char)
  | a :: b :: ':' :: c :: d :: ':' :: e :: f :: rest => do
    let _ ← twoDigits? a b 23
    let _ ← twoDigits? c d 59
    let _ ← twoDigits? e f 60
    afterFraction? rest
  | _ => none

/-- The text is a distance from universal time, or empty. -/
def isOffset : List Char → Bool
  | [] => true
  | ['Z'] => true
  | ['z'] => true
  | [sign, a, b, ':', c, d] =>
    (sign == '+' || sign == '-') && (twoDigits? a b 23).isSome && (twoDigits? c d 59).isSome
  | _ => false

/-- What stands between a date and a time. -/
def isTimeMark (c : Char) : Bool := c == 'T' || c == 't' || c == ' '

def isDateTime (cs : List Char) : Bool :=
  match afterDate? cs with
  | some [] => true
  | some (mark :: time) => isTimeMark mark && (afterTime? time).any isOffset
  | none => afterTime? cs == some []

/-- A word that is a value. -/
def scalar? (cs : List Char) : Option Toml :=
  match String.ofList cs with
  | "true" => some (boolean true)
  | "false" => some (boolean false)
  | text =>
    if isDateTime cs then some (dateTime text)
    else
      match integer? cs with
      | some value => some value
      | none => float? cs

/-! ## Quoted text -/

/-- A character that may stand in a comment or in quotes. -/
def isPlain (c : Char) : Bool := c == '\t' || (' ' ≤ c && c != '\x7f')

def isBlank (c : Char) : Bool := c == ' ' || c == '\t'

/-- A line ends at the front of the text. -/
def startsWithNewline : List Char → Bool
  | '\n' :: _ => true
  | '\r' :: '\n' :: _ => true
  | _ => false

/-- The character of a number in an escape. -/
def numbered? (digits : List Char) : Option Char := do
  if !digits.all (isDigitTo 16) then none
  let n := valueTo 16 digits
  if n.isValidChar then some (Char.ofNat n) else none

/-- The character that a letter behind a backslash stands for. -/
def escaped? : Char → Option Char
  | 'b' => some '\x08'
  | 't' => some '\t'
  | 'n' => some '\n'
  | 'f' => some '\x0c'
  | 'r' => some '\r'
  | '"' => some '"'
  | '\\' => some '\\'
  | _ => none

/-- Puts a character in front of a text that was read. -/
def cons? (c : Option Char) (read : Option (List Char × List Char)) :
    Option (List Char × List Char) := do
  let (text, rest) ← read
  return ((← c) :: text, rest)

/-- Reads from behind a double quote up to the closing one. -/
def quoted? : List Char → Option (List Char × List Char)
  | [] => none
  | '"' :: cs => some ([], cs)
  | '\\' :: 'u' :: a :: b :: c :: d :: cs => cons? (numbered? [a, b, c, d]) (quoted? cs)
  | '\\' :: 'U' :: a :: b :: c :: d :: e :: f :: g :: h :: cs =>
    cons? (numbered? [a, b, c, d, e, f, g, h]) (quoted? cs)
  | '\\' :: c :: cs => cons? (escaped? c) (quoted? cs)
  | c :: cs => if isPlain c then cons? (some c) (quoted? cs) else none

/-- Reads from behind a single quote up to the closing one. -/
def literal? : List Char → Option (List Char × List Char)
  | [] => none
  | '\'' :: cs => some ([], cs)
  | c :: cs => if isPlain c then cons? (some c) (literal? cs) else none

/-- Up to two quotes behind the closing ones still belong to the text. -/
def closing (quote : Char) : List Char → List Char × List Char
  | a :: b :: cs =>
    if a = quote ∧ b = quote then ([quote, quote], cs)
    else if a = quote then ([quote], b :: cs)
    else ([], a :: b :: cs)
  | [a] => if a = quote then ([quote], []) else ([], [a])
  | [] => ([], [])

/--
Reads from behind tripled double quotes up to the closing ones. A backslash at the end of a line
leaves out the blanks and line ends behind it, which is what `skipping` says.
-/
def quotedLines? (skipping : Bool) : List Char → Option (List Char × List Char)
  | [] => none
  | '"' :: '"' :: '"' :: cs => some (closing '"' cs)
  | '\r' :: '\n' :: cs =>
    if skipping then quotedLines? true cs else cons? (some '\n') (quotedLines? false cs)
  | '\\' :: 'u' :: a :: b :: c :: d :: cs =>
    cons? (numbered? [a, b, c, d]) (quotedLines? false cs)
  | '\\' :: 'U' :: a :: b :: c :: d :: e :: f :: g :: h :: cs =>
    cons? (numbered? [a, b, c, d, e, f, g, h]) (quotedLines? false cs)
  | '\\' :: c :: cs =>
    if startsWithNewline ((c :: cs).dropWhile isBlank) then quotedLines? true (c :: cs)
    else cons? (escaped? c) (quotedLines? false cs)
  | c :: cs =>
    if skipping && (isBlank c || c == '\n') then quotedLines? true cs
    else if isPlain c || c == '\n' then cons? (some c) (quotedLines? false cs)
    else none

/-- Reads from behind tripled single quotes up to the closing ones. -/
def literalLines? : List Char → Option (List Char × List Char)
  | [] => none
  | '\'' :: '\'' :: '\'' :: cs => some (closing '\'' cs)
  | '\r' :: '\n' :: cs => cons? (some '\n') (literalLines? cs)
  | c :: cs => if isPlain c || c == '\n' then cons? (some c) (literalLines? cs) else none

/-- The text without the end of a line at its front. -/
def withoutNewline : List Char → List Char
  | '\n' :: cs => cs
  | '\r' :: '\n' :: cs => cs
  | cs => cs

/-- Reads text in quotes of any kind. -/
def text? : List Char → Option (List Char × List Char)
  | '"' :: '"' :: '"' :: cs => quotedLines? false (withoutNewline cs)
  | '\'' :: '\'' :: '\'' :: cs => literalLines? (withoutNewline cs)
  | '"' :: cs => quoted? cs
  | '\'' :: cs => literal? cs
  | _ => none

end JavaAnalysis.Toml
