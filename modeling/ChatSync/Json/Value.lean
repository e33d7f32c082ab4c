/-!
# JSON values

The values of a JSON text (RFC 8259) and a reader for them. The reader takes
what the standard's grammar takes and nothing else: no trailing comma, no
leading zero, no unescaped control character, no escape but the standard
ones, and nothing after the value but blanks. Object members keep their
order and their repeats.

Numbers are read as a reader with 64-bit integers and doubles reads them: a
number written without fraction or exponent that fits an unsigned or a
signed 64-bit integer is an integer; any other number is a floating-point
one, kept exactly as a decimal mantissa and exponent. Minus zero is
floating-point. Whether a floating-point number is too large is decided the
way that reader computes its double: it keeps the leading digits that fit a
64-bit significand (dropping the rest, counting dropped digits before the
point in the exponent), rounds the significand to a double, and multiplies
it once by the double nearest the power of ten (no power above `10 ^ 308`);
the number is too large when that rounded product overflows.

Some texts follow the grammar and still hold no value: a string with a
lone surrogate escape, a number too large for a double. These are read as
`rough` leaves (a rough object key as no key). A reader of whole values
(`parse?`) refuses any text with a rough part, and any text with more than
127 arrays and objects open at once. A reader of records (`read?`) keeps
them: it refuses them only where a record uses them, and skips the members
it has no use for unread, however rough or deep.

Reading is bounded by fuel: each nested call spends one unit, and between
two calls at least one character is consumed for every two units, so twice
the length of the text (plus two) never runs out on a text that reads.
-/

namespace ChatSync

/-- A JSON value. A floating-point number is `mantissa * 10 ^ exponent`. A
string or number that holds no value is `rough`; so is an object key, as
`none`. -/
inductive JsonValue where
  | null
  | bool (b : Bool)
  | integer (n : Int)
  | float (mantissa : Int) (exponent : Int)
  | string (s : String)
  | rough
  | array (items : List JsonValue)
  | object (members : List (Option String × JsonValue))
  deriving Repr, Inhabited

namespace JsonValue

/-- JSON's blanks: space, tab, line feed and carriage return. -/
def isBlank (c : Char) : Bool := c == ' ' || c == '\t' || c == '\n' || c == '\r'

/-- The characters after the leading blanks. -/
def skipBlanks (cs : List Char) : List Char := cs.dropWhile isBlank

/-- The value of a run of decimal digits. -/
def digitsValue (ds : List Char) : Nat := ds.foldl (fun n c => 10 * n + (c.toNat - '0'.toNat)) 0

/-- The decimal digits at the front, and the rest. -/
def splitDigits (cs : List Char) : List Char × List Char :=
  (cs.takeWhile Char.isDigit, cs.dropWhile Char.isDigit)

/-- The largest unsigned 64-bit number. -/
def wordMax : Nat := Nat.pow 2 64 - 1

/-- The largest signed 32-bit number, the bound of a written exponent. -/
def exponentMax : Nat := Nat.pow 2 31 - 1

/-- An exponent held to the signed 32-bit range. -/
def clampExponent (x : Int) : Int := max (-(exponentMax : Int) - 1) (min exponentMax x)

/-- Takes decimal digits into a significand while it stays an unsigned
64-bit number: the significand and how many digits it took. It stops at the
first digit that would overflow it. -/
def takeDigits (sig : Nat) : List Char → Nat × Nat
  | [] => (sig, 0)
  | d :: ds =>
    let v := 10 * sig + (d.toNat - '0'.toNat)
    if wordMax < v then (sig, 0)
    else
      let (s, n) := takeDigits v ds
      (s, n + 1)

/-- A natural number rounded to the nearest double, ties to even. -/
def roundDouble (n : Nat) : Nat :=
  let bits := n.log2 + 1
  if bits ≤ 53 then n
  else
    let unit := Nat.pow 2 (bits - 53)
    let q := n / unit
    let r := n % unit
    let q := if unit / 2 < r || (r == unit / 2 && q % 2 == 1) then q + 1 else q
    q * unit

/-- The least magnitude that rounds past the largest double,
`(2 ^ 53 - 1) * 2 ^ 971`: the point halfway to `2 ^ 1024`, where a tie
rounds to the even neighbour, infinity. -/
def doubleLimit : Nat := Nat.pow 2 1024 - Nat.pow 2 970

/-- Whether the double of `sig * 10 ^ e` overflows: the significand rounded
to a double times the power of ten rounded to a double, rounded once more.
Powers above `10 ^ 308` overflow any significand but zero; negative
exponents only divide. -/
def overflows (sig : Nat) (e : Int) : Bool :=
  sig != 0 && 0 ≤ e &&
    (308 < e || doubleLimit ≤ roundDouble sig * roundDouble (Nat.pow 10 e.toNat))

/-- Whether a number with these digits is too large for a double. The
exponent is its sign (up or not) and digits; one beyond the 32-bit range
makes any number but zero too large when it is positive, and zero otherwise. -/
def tooLarge (whole fraction : List Char) (exponent : Option (Bool × List Char)) : Bool :=
  let (s1, n1) := takeDigits 0 whole
  let (sig, n2) := takeDigits s1 fraction
  let e : Int := (whole.length - n1 : Nat) - (n2 : Int)
  match exponent with
  | none => overflows sig e
  | some (up, ds) =>
    let x := digitsValue ds
    if exponentMax < x then sig != 0 && up
    else overflows sig (clampExponent (if up then e + x else e - x))

/-- The number a reader with 64-bit integers makes of a minus sign (or
none), the digits `m` and the exponent `e`, where `plain` says that the
number was written without fraction or exponent. A floating-point zero is
kept with exponent zero, whatever exponent it was written with. -/
def classify (negative plain : Bool) (m : Nat) (e : Int) : JsonValue :=
  if plain && !negative && m < Nat.pow 2 64 then .integer m
  else if plain && negative && 0 < m && m ≤ Nat.pow 2 63 then .integer (-(m : Int))
  else if m = 0 then .float 0 0
  else .float (if negative then -(m : Int) else m) e

/-- Reads a number: a minus sign or none, an integer part without leading
zeros, a fraction of at least one digit or none, an exponent or none. A
number too large for a double is rough. -/
def readNumber (cs : List Char) : Option (JsonValue × List Char) := do
  let (negative, cs) := match cs with
    | '-' :: r => (true, r)
    | r => (false, r)
  let (whole, cs) := splitDigits cs
  match whole with
  | [] => none
  | '0' :: _ :: _ => none
  | _ => pure ()
  let (fraction, cs) ← match cs with
    | '.' :: r =>
      let (ds, r) := splitDigits r
      if ds.isEmpty then none else some (ds, r)
    | r => some ([], r)
  let (exponent, cs) ← match cs with
    | c :: r =>
      if c == 'e' || c == 'E' then
        let (up, r) : Bool × List Char := match r with
          | '+' :: r => (true, r)
          | '-' :: r => (false, r)
          | r => (true, r)
        let (ds, r) := splitDigits r
        if ds.isEmpty then none else some (some (up, ds), r)
      else some (none, c :: r)
    | [] => some (none, [])
  if tooLarge whole fraction exponent then return (.rough, cs)
  let e : Int := match exponent with
    | some (up, ds) => if up then digitsValue ds else -(digitsValue ds : Int)
    | none => 0
  return (classify negative (fraction.isEmpty && exponent.isNone)
    (digitsValue (whole ++ fraction)) (e - fraction.length), cs)

/-- The value of a hexadecimal digit. -/
def hexDigit? (c : Char) : Option Nat :=
  if c.isDigit then some (c.toNat - '0'.toNat)
  else if 'a' ≤ c ∧ c ≤ 'f' then some (c.toNat - 'a'.toNat + 10)
  else if 'A' ≤ c ∧ c ≤ 'F' then some (c.toNat - 'A'.toNat + 10)
  else none

/-- The value of four hexadecimal digits. -/
def hex4? (a b c d : Char) : Option Nat :=
  [a, b, c, d].foldlM (fun n ch => (hexDigit? ch).map (16 * n + ·)) 0

/-- The character a one-letter escape stands for. -/
def escaped? : Char → Option Char
  | '"' => some '"'
  | '\\' => some '\\'
  | '/' => some '/'
  | 'b' => some '\x08'
  | 'f' => some '\x0c'
  | 'n' => some '\n'
  | 'r' => some '\r'
  | 't' => some '\t'
  | _ => none

/-- Whether a code is a leading (high) surrogate. -/
def isLeadingSurrogate (n : Nat) : Bool := 0xD800 ≤ n && n < 0xDC00

/-- Whether a code is a trailing (low) surrogate. -/
def isTrailingSurrogate (n : Nat) : Bool := 0xDC00 ≤ n && n < 0xE000

/-- The text read so far with one more escaped code: the code's character,
or none (rough) for a trailing surrogate standing alone. -/
def withCode (acc : Option (List Char)) (n : Nat) : Option (List Char) :=
  if isTrailingSurrogate n then none else acc.map (Char.ofNat n :: ·)

/-- The text read so far, or none (rough) if a leading surrogate is still
waiting for its trailing one. -/
def settled (acc : Option (List Char)) (pending : Option Nat) : Option (List Char) :=
  if pending.isSome then none else acc

/-- Reads the characters of a string up to its closing quote; `acc` holds
those read so far, last first, or is none once a lone surrogate escape made
the string rough; `pending` holds a leading surrogate just read. A leading
surrogate followed by an escaped trailing one stands for one character. -/
def readChars (acc : Option (List Char)) (pending : Option Nat) :
    List Char → Option (Option String × List Char)
  | [] => none
  | '"' :: r => some ((settled acc pending).map fun cs => String.ofList cs.reverse, r)
  | '\\' :: 'u' :: a :: b :: c :: d :: r =>
    match hex4? a b c d, pending with
    | none, _ => none
    | some lo, some hi =>
      if isTrailingSurrogate lo then
        readChars (acc.map (Char.ofNat (0x10000 + (hi - 0xD800) * 0x400 + (lo - 0xDC00)) :: ·)) none r
      else readChars none none r
    | some n, none =>
      if isLeadingSurrogate n then readChars acc (some n) r else readChars (withCode acc n) none r
  | '\\' :: e :: r =>
    match escaped? e with
    | some ch => readChars ((settled acc pending).map (ch :: ·)) none r
    | none => none
  | c :: r =>
    if c.toNat < 0x20 then none else readChars ((settled acc pending).map (c :: ·)) none r

mutual

/-- Reads a value after optional blanks, with `fuel` for the steps. -/
def readValue : Nat → List Char → Option (JsonValue × List Char)
  | 0, _ => none
  | fuel + 1, cs =>
    match skipBlanks cs with
    | 'n' :: 'u' :: 'l' :: 'l' :: r => some (.null, r)
    | 't' :: 'r' :: 'u' :: 'e' :: r => some (.bool true, r)
    | 'f' :: 'a' :: 'l' :: 's' :: 'e' :: r => some (.bool false, r)
    | '"' :: r => (readChars (some []) none r).map fun (s, r) => ((s.map .string).getD .rough, r)
    | '[' :: r =>
      match skipBlanks r with
      | ']' :: r => some (.array [], r)
      | _ => readItems fuel [] r
    | '{' :: r =>
      match skipBlanks r with
      | '}' :: r => some (.object [], r)
      | _ => readMembers fuel [] r
    | r => readNumber r

/-- Reads the items of an array after its opening bracket or a comma; `acc`
holds the items read so far, last first. -/
def readItems : Nat → List JsonValue → List Char → Option (JsonValue × List Char)
  | 0, _, _ => none
  | fuel + 1, acc, cs => do
    let (v, r) ← readValue fuel cs
    match skipBlanks r with
    | ',' :: r => readItems fuel (v :: acc) r
    | ']' :: r => some (.array (v :: acc).reverse, r)
    | _ => none

/-- Reads the members of an object after its opening brace or a comma; `acc`
holds the members read so far, last first. -/
def readMembers : Nat → List (Option String × JsonValue) → List Char →
    Option (JsonValue × List Char)
  | 0, _, _ => none
  | fuel + 1, acc, cs =>
    match skipBlanks cs with
    | '"' :: r => do
      let (key, r) ← readChars (some []) none r
      let ':' :: r := skipBlanks r | none
      let (v, r) ← readValue fuel r
      match skipBlanks r with
      | ',' :: r => readMembers fuel ((key, v) :: acc) r
      | '}' :: r => some (.object ((key, v) :: acc).reverse, r)
      | _ => none
    | _ => none

end

mutual

/-- Whether a value has no rough part and opens at most `room` arrays and
objects one inside another. -/
def fits : Nat → JsonValue → Bool
  | _, .rough => false
  | room + 1, .array xs => itemsFit room xs
  | room + 1, .object ms => membersFit room ms
  | 0, .array _ => false
  | 0, .object _ => false
  | _, _ => true

/-- Whether every item fits in `room`. -/
def itemsFit (room : Nat) : List JsonValue → Bool
  | [] => true
  | x :: xs => fits room x && itemsFit room xs

/-- Whether every key is smooth and every member value fits in `room`. -/
def membersFit (room : Nat) : List (Option String × JsonValue) → Bool
  | [] => true
  | (k, v) :: ms => k.isSome && fits room v && membersFit room ms

end

/-- How many arrays and objects a whole value may open one inside another. -/
def nestingLimit : Nat := 127

/-- Reads a JSON text for a reader of records: one value with blanks
around it, rough parts kept. -/
def read? (text : String) : Option JsonValue :=
  match readValue (2 * text.length + 2) text.toList with
  | some (v, rest) => if (skipBlanks rest).isEmpty then some v else none
  | none => none

/-- Reads a JSON text as a whole value: nothing rough, and no more than
`nestingLimit` arrays and objects open at once. -/
def parse? (text : String) : Option JsonValue := (read? text).filter (fits nestingLimit)

end JsonValue

end ChatSync
