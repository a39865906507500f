/-
Automation/Action/Address.lean

Web addresses, and which of them can be tried.

An address is cut at the end of its scheme; its host stands between two slashes
and the next of `/`, `?` and `#`.  A host in brackets has to be a numeric
address: eight groups of hexadecimal digits, the last two of which may be
written as four decimal numbers, and a run of zero groups as two colons; or an
address of a later version.  Only a user may stand before the brackets and only a
port behind them.  A character that stands in for a delimiter is no part of a
host.
-/
import Automation.Fault
import Automation.Text.Quoted
import Automation.Text.Search

namespace Automation.Address

/-! ### Parts -/

/-- A character of the scheme of an address. -/
def isSchemeChar (c : Char) : Bool := c.isAlphanum || c == '+' || c == '-' || c == '.'

/-- An address cut at the end of its scheme, if it has one. -/
def schemeAndRest (cs : List Char) : String × List Char :=
  let (front, rest) := Text.cutOnce ':' cs
  if front.length < cs.length && front.all isSchemeChar
      && (front.head?.map Char.isAlpha).getD false then
    (String.ofList (front.map Char.toLower), rest)
  else ("", cs)

/-- The host of an address after its scheme, with what belongs to it. -/
def hostOf : List Char → List Char
  | '/' :: '/' :: rest => rest.takeWhile fun c => c != '/' && c != '?' && c != '#'
  | _ => []

/-- A character that does not count in an address. -/
def isIgnored (c : Char) : Bool := c == '\t' || c == '\n' || c == '\r'

/-- The characters of an address that count. -/
def significant (url : String) : List Char :=
  (url.toList.dropWhile fun c => decide (c.toNat ≤ 0x20)).filter (!isIgnored ·)

/-! ### Numeric hosts -/

/-- A hexadecimal digit in either case. -/
def isHexDigit (c : Char) : Bool := (Text.hexValue? c).isSome

/-- A group of one to four hexadecimal digits. -/
def isGroup (cs : List Char) : Bool :=
  !cs.isEmpty && decide (cs.length ≤ 4) && cs.all isHexDigit

/-- A decimal number up to 255, without zeros in front. -/
def isOctet (cs : List Char) : Bool :=
  match cs with
  | ['0'] => true
  | '0' :: _ => false
  | _ => !cs.isEmpty && decide (cs.length ≤ 3) && cs.all Char.isDigit
      && decide (cs.foldl (fun n c => 10 * n + (c.toNat - 0x30)) 0 ≤ 255)

/-- Four decimal numbers between points. -/
def isQuad (cs : List Char) : Bool :=
  let parts := Text.cut '.' cs
  parts.length == 4 && parts.all isOctet

/-- How many groups the parts of an address stand for, if they are groups; the
last part may be four decimal numbers, which count as two groups. -/
def groupCount? : List (List Char) → Option Nat
  | [] => some 0
  | [last] => if isQuad last then some 2 else if isGroup last then some 1 else none
  | part :: rest => if isGroup part then (groupCount? rest).map (· + 1) else none

/-- The parts between colons; nothing has no parts. -/
def parts (cs : List Char) : List (List Char) := if cs.isEmpty then [] else Text.cut ':' cs

/-- What stands before and after the first two colons in a row. -/
def atGap : List Char → Option (List Char × List Char)
  | ':' :: ':' :: rest => some ([], rest)
  | c :: rest => (atGap rest).map fun (front, back) => (c :: front, back)
  | [] => none

/-- Eight groups, or fewer of them with a gap. -/
def isSix (cs : List Char) : Bool :=
  match atGap cs with
  | none => groupCount? (parts cs) == some 8
  | some (front, back) =>
    let before := parts front
    before.all isGroup &&
      match groupCount? (parts back) with
      | some count => decide (before.length + count < 8)
      | none => false

/-- Groups with an optional zone behind a percent sign. -/
def isZoned (cs : List Char) : Bool :=
  let (groups, zone) := Text.cutOnce '%' cs
  isSix groups && (groups.length == cs.length || (!zone.isEmpty && !zone.contains '%'))

/-- An address of a later version: the letter `v`, a version, a point, and the
rest. -/
def isLater (cs : List Char) : Bool :=
  match cs with
  | 'v' :: more =>
    !(more.takeWhile isHexDigit).isEmpty &&
      match more.dropWhile isHexDigit with
      | '.' :: _ :: _ => true
      | _ => false
  | _ => false

/-- The part of a host behind the last `@`. -/
def behindUser (host : List Char) : List Char := (host.reverse.takeWhile (· != '@')).reverse

/-- The part of a host that has to be numeric, given what stands behind the user:
all between brackets at its beginning, after which only a port may come, or, where
it has no bracket, all up to the port. -/
def bracketed (host : List Char) : Except HostFlaw (List Char) :=
  let (front, rest) := Text.cutOnce '[' host
  if front.length = host.length then .ok (Text.cutOnce ':' host).1
  else
    let (inner, behind) := Text.cutOnce ']' rest
    if front.isEmpty && (behind.isEmpty || behind.head? == some ':') then .ok inner
    else .error .brackets

/-- An address in brackets is of a later version or numeric, and not of the short
form. -/
def checkNumeric (inner : List Char) : Except HostFlaw Unit :=
  if inner.head? = some 'v' then if isLater inner then .ok () else .error .laterVersion
  else if isQuad inner then .error .bracketedQuad
  else if isZoned inner then .ok ()
  else .error (.notNumeric (String.ofList inner))

/-- A host without brackets, or with a numeric address in them. -/
def checkBrackets (host : List Char) : Except HostFlaw Unit :=
  match host.contains '[', host.contains ']' with
  | false, false => .ok ()
  | true, true => do checkNumeric (← bracketed (behindUser host))
  | _, _ => .error .brackets

/-! ### Addresses that can be tried -/

/-- Characters whose compatible form has a delimiter of addresses in it. -/
def standIns : List Nat :=
  [0x2047, 0x2048, 0x2049, 0x2100, 0x2101, 0x2105, 0x2106, 0x2A74, 0xFE13, 0xFE16, 0xFE55, 0xFE56,
   0xFE5F, 0xFE6B, 0xFF03, 0xFF0F, 0xFF1A, 0xFF1F, 0xFF20]

/-- A host that is well formed. -/
def checkHost (host : List Char) : Except HostFlaw Unit := do
  checkBrackets host
  if host.any fun c => standIns.contains c.toNat then .error (.standIn (String.ofList host))
  else .ok ()

/-- The address can be tried: its host is there and well formed, and its scheme
is that of the web. -/
def check (url : String) : Except Fault Unit :=
  let (scheme, rest) := schemeAndRest (significant url)
  let host := hostOf rest
  match checkHost host with
  | .error flaw => .error (.badHost flaw)
  | .ok () =>
    if (scheme = "http" ∨ scheme = "https") ∧ host ≠ [] then .ok ()
    else .error (.badUrl url)

end Automation.Address
