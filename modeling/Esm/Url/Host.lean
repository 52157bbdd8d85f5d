-- SUMMARY: The hosts of web addresses: domains and numeric addresses.
import Esm.Text.Quoted
import Esm.Text.Split
import Esm.Url.Percent

/-!
# Hosts

A host in brackets is an IPv6 address. Any other is percent-decoded and lowered; if its last label
is a number it has to be an IPv4 address, and otherwise it is a domain. A domain is made of ASCII
characters that have no meaning of their own in an address.
-/

namespace Esm.Url

open Text

/-- Why a text is no web address. -/
inductive Error where
  | relative
  | emptyHost
  | invalidDomain
  | invalidPort
  | invalidIpv4
  | invalidIpv6
deriving DecidableEq, Repr

def Error.message : Error → String
  | .relative => "relative URL without a base"
  | .emptyHost => "empty host"
  | .invalidDomain => "invalid international domain name"
  | .invalidPort => "invalid port number"
  | .invalidIpv4 => "invalid IPv4 address"
  | .invalidIpv6 => "invalid IPv6 address"

/-- The host of an address. An IPv6 address has eight pieces. -/
inductive Host where
  | domain (name : String)
  | ipv4 (address : Nat)
  | ipv6 (pieces : List Nat)
deriving DecidableEq, Repr

/-! ## IPv4 -/

/-- The value of digits in a base, if all of them are digits of it. -/
def digitsValue? (base : Nat) (digits : List Char) : Option Nat :=
  digits.foldl (fun value c => do
    let value ← value
    let digit ← hexValue? c
    if digit < base then some (value * base + digit) else none) (some 0)

/-- The number that a label of an IPv4 address stands for: hexadecimal behind `0x`, octal behind a
zero, decimal otherwise. -/
def ipv4Number? : List Char → Option Nat
  | [] => none
  | '0' :: 'x' :: digits => digitsValue? 16 digits
  | '0' :: 'X' :: digits => digitsValue? 16 digits
  | ['0'] => some 0
  | '0' :: digits => digitsValue? 8 digits
  | digits => digitsValue? 10 digits

/-- The labels of a domain, an empty last one left out. -/
def labels (domain : List Char) : List (List Char) :=
  let all := segments '.' domain
  if all.getLast? = some [] then all.dropLast else all

/-- Whether a domain has to be an IPv4 address: whether its last label is a number. -/
def endsInNumber (domain : List Char) : Bool :=
  match (labels domain).getLast? with
  | some last => (!last.isEmpty && last.all Char.isDigit) || (ipv4Number? last).isSome
  | none => false

/-- The address of one to four numbers. All but the last stand for a byte, the last for the rest. -/
def ipv4OfNumbers (numbers : List Nat) : Except Error Nat :=
  match numbers.getLast? with
  | none => .error .invalidIpv4
  | some last =>
    let bytes := numbers.dropLast
    let room := Nat.pow 256 (4 - bytes.length)
    if bytes.length > 3 || bytes.any (· > 255) || last ≥ room then .error .invalidIpv4
    else .ok (bytes.foldl (fun address byte => address * 256 + byte) 0 * room + last)

def ipv4OfDomain (domain : List Char) : Except Error Nat :=
  match (labels domain).mapM ipv4Number? with
  | none => .error .invalidIpv4
  | some numbers =>
    if numbers.any (· ≥ 4294967296) then .error .invalidIpv4 else ipv4OfNumbers numbers

def ipv4Text (address : Nat) : String :=
  ".".intercalate ([16777216, 65536, 256, 1].map fun place => toString (address / place % 256))

/-! ## IPv6 -/

/-- A byte of an IPv4 address inside an IPv6 address: decimal, without leading zeros. -/
def plainByte? (digits : List Char) : Option Nat :=
  if digits.isEmpty || !digits.all Char.isDigit || (digits.length > 1 && digits.head? = some '0')
  then none
  else (digitsValue? 10 digits).filter (· ≤ 255)

/-- The two pieces of an IPv4 address at the end of an IPv6 address. -/
def ipv4Pieces? (cs : List Char) : Option (List Nat) :=
  match (segments '.' cs).mapM plainByte? with
  | some [a, b, c, d] => some [a * 256 + b, c * 256 + d]
  | _ => none

/-- Fill the gap at `gap` with zero pieces. Without a gap all eight pieces have to be there. -/
def expand (pieces : List Nat) (gap : Option Nat) : Except Error (List Nat) :=
  match gap with
  | some i => .ok (pieces.take i ++ List.replicate (8 - pieces.length) 0 ++ pieces.drop i)
  | none => if pieces.length = 8 then .ok pieces else .error .invalidIpv6

/-- Read pieces. `::` stands for one zero piece and a gap behind it. -/
def ipv6Pieces (pieces : List Nat) (gap : Option Nat) : List Char → Except Error (List Nat)
  | [] => expand pieces gap
  | c :: rest =>
    if pieces.length ≥ 8 then .error .invalidIpv6
    else if c = ':' then
      if gap.isSome then .error .invalidIpv6
      else ipv6Pieces (pieces ++ [0]) (some (pieces.length + 1)) rest
    else
      let digits := ((c :: rest).take 4).takeWhile fun c => (hexValue? c).isSome
      let value := (digitsValue? 16 digits).getD 0
      match _ : (c :: rest).drop digits.length with
      | [] => expand (pieces ++ [value]) gap
      | '.' :: _ =>
        if digits.isEmpty || pieces.length > 6 then .error .invalidIpv6
        else
          match ipv4Pieces? (c :: rest) with
          | some last => expand (pieces ++ last) gap
          | none => .error .invalidIpv6
      | ':' :: d :: rest' => ipv6Pieces (pieces ++ [value]) gap (d :: rest')
      | _ => .error .invalidIpv6
termination_by cs => cs.length
decreasing_by
  · simp
  · rename_i left
    have := congrArg List.length left
    simp only [List.length_drop, List.length_cons] at this ⊢
    omega

/-- Read the inside of the brackets. -/
def ipv6OfText (cs : List Char) : Except Error (List Nat) :=
  match cs with
  | [] => .error .invalidIpv6
  | [_] => .error .invalidIpv6
  | ':' :: ':' :: rest => ipv6Pieces [0] (some 1) rest
  | ':' :: _ => .error .invalidIpv6
  | cs => ipv6Pieces [] none cs

/-- The number of zero pieces from an index on. -/
def zerosAt (pieces : List Nat) (i : Nat) : Nat := ((pieces.drop i).takeWhile (· == 0)).length

/-- The text of an IPv6 address: lowercase pieces, the first longest run of zeros left out if it has
two or more. -/
def ipv6Text (pieces : List Nat) : String :=
  let text (ps : List Nat) : String :=
    ":".intercalate (ps.map fun p => String.ofList (hexDigits p))
  let longest := ((List.range 8).map (zerosAt pieces)).foldl max 0
  match (List.range 8).find? fun i => zerosAt pieces i = longest with
  | some i =>
    if longest < 2 then text pieces
    else text (pieces.take i) ++ "::" ++ text (pieces.drop (i + longest))
  | none => text pieces

/-! ## Hosts -/

/-- The characters that a domain may not hold. -/
def forbiddenInDomain (c : Char) : Bool :=
  isOpaque c || [' ', '#', '%', '/', ':', '<', '>', '?', '@', '[', '\\', ']', '^', '|'].contains c

namespace Host

def ofText (cs : List Char) : Except Error Host :=
  match cs with
  | [] => .error .emptyHost
  | '[' :: inside =>
    if inside.getLast? = some ']' then (ipv6OfText inside.dropLast).map .ipv6
    else .error .invalidIpv6
  | cs =>
    let domain := (decode cs).map fun b => (Char.ofNat b.toNat).toLower
    if domain.any forbiddenInDomain then .error .invalidDomain
    else if endsInNumber domain then (ipv4OfDomain domain).map .ipv4
    else .ok (.domain (String.ofList domain))

def text : Host → String
  | .domain name => name
  | .ipv4 address => ipv4Text address
  | .ipv6 pieces => "[" ++ ipv6Text pieces ++ "]"

end Host

end Esm.Url
