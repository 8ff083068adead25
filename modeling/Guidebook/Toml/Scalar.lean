import Guidebook.Toml.Node

/-!
# TOML Scalars

The values that are written without quotes: truth values, integers, floating-point numbers, dates
and times. Their characters are read as one run, whose beginning decides which of these forms it has
to have.

A run that has the form of a number need not have a value: the number may be out of range, have no
digits behind its radix, or digits of a larger radix behind an underscore.
-/

namespace Guidebook.Toml

/-! ### Runs -/

/-- Whether a character can stand in a run. -/
def isScalarChar (c : Char) : Bool :=
  !"=,[]\x7b\x7d \t#\r\n".toList.contains c

/-- Whether a run goes on behind blanks: no sign or quote comes next. -/
def goesOn (t : Text) : Bool :=
  match t.dropWhile fun c => c = ' ' || c = '\t' with
  | c :: _ => isScalarChar c && !".\"'".toList.contains c
  | [] => false

/-- How many characters at the beginning of a text make up a run. Blanks belong to it if it goes on
behind them, as between a date and a time. -/
def scalarLength : Text → Nat
  | [] => 0
  | c :: rest =>
    if isScalarChar c || ((c = ' ' || c = '\t') && goesOn rest) then scalarLength rest + 1 else 0

/-! ### Digits -/

/-- A run without the sign in front of it, and whether the sign is a minus. -/
def unsigned : Text → Bool × Text
  | '-' :: rest => (true, rest)
  | '+' :: rest => (false, rest)
  | t => (false, t)

/-- Whether a character is a digit in the hexadecimal system. -/
def isHexDigit (c : Char) : Bool :=
  c.isDigit || ('a' ≤ c.toLower && c.toLower ≤ 'f')

/-- Whether the underscores in a text stand between digits. What stands in front of the first may be
a single sign. -/
def separatesDigits (isDigit : Char → Bool) (t : Text) : Bool :=
  match Text.splitOn '_' t with
  | first :: next :: others =>
    !first.isEmpty
      && (next :: others).all (fun group => group.head?.any isDigit)
      && (first :: (next :: others).dropLast).all fun group =>
        group.length ≤ 1 || group.getLast?.any isDigit
  | _ => true

/-- A text without its underscores. -/
def dropUnderscores (t : Text) : Text :=
  t.filter (· ≠ '_')

/-- The number that digits of the given base write. -/
def digitsValue (base : Nat) (t : Text) : Nat :=
  t.foldl (fun value c =>
    if c.isDigit then base * value + (c.toNat - '0'.toNat)
    else base * value + (c.toLower.toNat - 'a'.toNat + 10)) 0

/-! ### Integers -/

/-- Whether a text is a number of the given base with at most 128 bits. -/
def isUnsigned (base : Nat) (isDigit : Char → Bool) (digits : Text) : Bool :=
  !digits.isEmpty && digits.all isDigit && digitsValue base digits < Nat.pow 2 128

/-- The integer of the given base that the digits behind its radix make up. -/
def radixInteger? (base : Nat) (isDigit : Char → Bool) (digits : Text) : Option Node :=
  if digits.all (fun c => isDigit c || c = '_') && separatesDigits isDigit digits then
    some (.plain (isUnsigned base isDigit (dropUnderscores digits)))
  else none

/-- The decimal integer that a run makes up. -/
def decimalInteger? (run : Text) : Option Node :=
  let body := (unsigned run).2
  if (body.head? = some '0' && body.length ≠ 1) || !separatesDigits isHexDigit run then none
  else
    match unsigned (dropUnderscores run) with
    | (true, digits) =>
      some (.plain (!digits.isEmpty && digits.all Char.isDigit
        && digitsValue 10 digits ≤ Nat.pow 2 127))
    | (false, digits) => some (.plain (isUnsigned 10 Char.isDigit digits))

/-! ### Floating-point numbers -/

/-- Whether the number `mantissa * 10 ^ exponent` is beyond the range of 64-bit floating-point
numbers: it would round to 2 ^ 1024 or more. -/
def isTooLarge (mantissa : Nat) (exponent : Int) : Bool :=
  let limit := Nat.pow 2 1024 - Nat.pow 2 970
  if mantissa = 0 then false
  else if 400 < (Nat.toDigits 10 mantissa).length + exponent then true
  else if 0 ≤ exponent then decide (limit ≤ mantissa * Nat.pow 10 exponent.toNat)
  else if (Nat.toDigits 10 mantissa).length + exponent < 300 then false
  else decide (limit * Nat.pow 10 (-exponent).toNat ≤ mantissa)

/-- The digits at the beginning of a text, and what follows them. None if there are none. -/
def digits? (t : Text) : Option (Text × Text) :=
  let run := t.takeWhile fun c => c.isDigit || c = '_'
  let digits := dropUnderscores run
  if digits = [] then none else some (digits, t.dropWhile fun c => c.isDigit || c = '_')

/-- The fraction at the beginning of a text, empty if there is none, and what follows it. -/
def fraction? : Text → Option (Text × Text)
  | '.' :: rest => digits? rest
  | rest => some ([], rest)

/-- The exponent that a text is; zero if it is empty. -/
def exponent? : Text → Option Int
  | [] => some 0
  | c :: rest =>
    if c = 'e' ∨ c = 'E' then
      match unsigned rest with
      | (isNegative, rest) =>
        match digits? rest with
        | some (digits, []) =>
          let size : Int := digitsValue 10 digits
          some (if isNegative then -size else size)
        | _ => none
    else none

/-- The floating-point number that a run makes up: digits, then a fraction or an exponent or both.
A run of more than one digit does not begin with a zero. -/
def float? (run : Text) : Option Node := do
  let body := (unsigned run).2
  let (whole, rest) ← digits? body
  let (fraction, rest) ← fraction? rest
  let exponent ← exponent? rest
  if (body.head? = some '0' && whole.length ≠ 1) || !separatesDigits Char.isDigit run then none
  else
    some (.plain !isTooLarge (digitsValue 10 (whole ++ fraction)) (exponent - fraction.length))

/-! ### Dates and times -/

/-- A number of exactly `n` digits, and what follows it. -/
def fixedNumber? (n : Nat) (t : Text) : Option (Nat × Text) :=
  let digits := t.take n
  if digits.length = n ∧ digits.all Char.isDigit then some (digitsValue 10 digits, t.drop n)
  else none

/-- What follows a given character. -/
def afterChar? (c : Char) : Text → Option Text
  | d :: rest => if d = c then some rest else none
  | [] => none

/-- The number of days of a month. -/
def daysIn (year month : Nat) : Nat :=
  if month = 2 then
    if year % 4 = 0 ∧ (year % 100 ≠ 0 ∨ year % 400 = 0) then 29 else 28
  else if month = 4 ∨ month = 6 ∨ month = 9 ∨ month = 11 then 30
  else 31

/-- What follows a date `yyyy-mm-dd`. -/
def afterDate? (t : Text) : Option Text := do
  let (year, t) ← fixedNumber? 4 t
  let (month, t) ← fixedNumber? 2 (← afterChar? '-' t)
  let (day, t) ← fixedNumber? 2 (← afterChar? '-' t)
  if 1 ≤ month ∧ month ≤ 12 ∧ 1 ≤ day ∧ day ≤ daysIn year month then some t else none

/-- What follows a time `hh:mm`, which may go on with `:ss` and a fraction of the second. -/
def afterTime? (t : Text) : Option Text := do
  let (hour, t) ← fixedNumber? 2 t
  let (minute, t) ← fixedNumber? 2 (← afterChar? ':' t)
  if hour ≤ 23 ∧ minute ≤ 59 then
    match t with
    | ':' :: rest =>
      let (second, t) ← fixedNumber? 2 rest
      if 60 < second then none
      else
        match t with
        | '.' :: c :: rest =>
          if c.isDigit then some (rest.dropWhile Char.isDigit) else none
        | t => some t
    | t => some t
  else none

/-- Whether a run is the offset of a time from universal time. -/
def isOffset (t : Text) : Bool :=
  match t with
  | ['Z'] => true
  | ['z'] => true
  | sign :: rest =>
    if sign = '+' ∨ sign = '-' then
      match (do
        let (hour, t) ← fixedNumber? 2 rest
        let (minute, t) ← fixedNumber? 2 (← afterChar? ':' t)
        if hour ≤ 23 ∧ minute ≤ 59 then some t else none) with
      | some [] => true
      | _ => false
    else false
  | [] => false

/-- Whether a run is a date, a time, or a date and a time, which may have an offset. -/
def isDate (t : Text) : Bool :=
  match afterDate? t with
  | some [] => true
  | some (delimiter :: rest) =>
    if delimiter = 'T' ∨ delimiter = 't' ∨ delimiter = ' ' then
      match afterTime? rest with
      | some [] => true
      | some offset => isOffset offset
      | none => false
    else false
  | none => afterTime? t = some []

/-! ### Values -/

/-- The number, date or time that a run makes up whose digits or underscores begin with `body`. -/
def numeric? (run body : Text) : Option Node :=
  match body with
  | '0' :: 'x' :: digits => if run = body then radixInteger? 16 isHexDigit digits else none
  | '0' :: 'o' :: digits =>
    if run = body then radixInteger? 8 (fun c => '0' ≤ c && c ≤ '7') digits else none
  | '0' :: 'b' :: digits =>
    if run = body then radixInteger? 2 (fun c => c = '0' || c = '1') digits else none
  | body =>
    match body.dropWhile Char.isDigit with
    | [] => decimalInteger? run
    | c :: rest =>
      if c = '-' ∨ c = ':' then if isDate run then some .date else none
      else if rest.contains ' ' || c = ' ' then none
      else if (c :: rest).any fun c => c = '.' || c = 'e' || c = 'E' then float? run
      else if c = '_' then decimalInteger? run
      else none

/-- The value that a run makes up, if it is one. -/
def scalar? (run : Text) : Option Node :=
  if run = "true".toList ∨ run = "false".toList then some (.plain true)
  else
    let body := (unsigned run).2
    if body = "inf".toList ∨ body = "nan".toList then some (.plain true)
    else
      match body with
      | c :: _ => if c.isDigit || c = '_' then numeric? run body else none
      | [] => none

end Guidebook.Toml
