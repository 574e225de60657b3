import ModAlmanac.Text.Blank
import ModAlmanac.Text.Digit
import ModAlmanac.Text.Scan

/-!
Addresses. A request goes to an address that begins with a scheme. Of the address that a visitor of
a site gives only the path counts: a scheme and a host in front of it are dropped, and so are a
query and a fragment behind it. A host in brackets has to be a number of the sixth version or of a
later one.
-/

namespace ModAlmanac.Http

open Text

def dropTrailingSlashes (s : List Char) : List Char :=
  (s.reverse.dropWhile (· = '/')).reverse

/-! ## Addresses of requests -/

/-- The text of an address: without the white space around it, without the angle brackets that
enclose all of it, and without the mark `URL:` in front. -/
def unwrapped (s : List Char) : List Char :=
  let bare :=
    match trim s with
    | '<' :: rest => if rest.getLast? = some '>' then trim rest.dropLast else '<' :: rest
    | other => other
  match "URL:".toList.isPrefixOf? bare with
  | some rest => trim rest
  | none => bare

/-- An address in front of its last number sign, and the fragment behind that. -/
def splitFragment (s : List Char) : List Char × List Char :=
  let fragment := (s.reverse.takeWhile (· ≠ '#')).reverse
  if fragment.length = s.length then (s, [])
  else (s.take (s.length - fragment.length - 1), fragment)

def hasScheme (s : List Char) : Bool :=
  let scheme := s.takeWhile fun c => c ≠ '/' && c ≠ ':'
  !scheme.isEmpty && (s.drop scheme.length).head? = some ':'

/-- The address that a text writes, if it has a scheme. An empty fragment does not count. -/
def address? (url : List Char) : Option String :=
  let text := unwrapped url
  let (resource, fragment) := splitFragment text
  if hasScheme resource then
    some (String.ofList (if fragment.isEmpty then resource else text))
  else none

/-! ## Hosts -/

/-- Whether a text is a part of a number of the fourth version: a number up to 255 without zeros in
front. -/
def isBytePart (s : List Char) : Bool :=
  !s.isEmpty && s.length ≤ 3 && s.all Char.isDigit && digitsValue s ≤ 255 &&
    (s.length = 1 || s.head? ≠ some '0')

def isShortNumber (s : List Char) : Bool :=
  let parts := partsAt '.' s
  parts.length = 4 && parts.all isBytePart

/-- Whether a text is a part of a number of the sixth version: up to four hexadecimal digits. -/
def isWordPart (s : List Char) : Bool :=
  !s.isEmpty && s.length ≤ 4 && s.all isHexDigit

/-- The parts of a number of the sixth version, a number of the fourth version at the end standing
for two of them. -/
def wordParts? (s : List Char) : Option (List (List Char)) :=
  let parts := partsAt ':' s
  let last := parts.getLast?.getD []
  if parts.length < 3 then none
  else if last.contains '.' then
    if isShortNumber last then some (parts.dropLast ++ [['0'], ['0']]) else none
  else some parts

/-- Whether parts around a gap of zeros are well formed: a gap at an end leaves one empty part
there. -/
def isGapSide (outer : Option (List Char)) (parts : List (List Char)) : Bool :=
  (parts.length = 1 && outer = some []) || parts.all isWordPart

/-- Whether some parts make a number of the sixth version: eight of them, or fewer around one gap. -/
def areNumberParts (parts : List (List Char)) : Bool :=
  let inner := (parts.drop 1).dropLast
  match inner.count [] with
  | 0 => parts.length = 8 && parts.all isWordPart
  | 1 =>
    let high := parts.take (inner.takeWhile (· ≠ [])).length.succ
    let low := parts.drop (high.length + 1)
    let written := (high ++ low).countP (· ≠ [])
    isGapSide high.head? high && isGapSide low.getLast? low && written ≤ 7
  | _ => false

/-- Whether a text is a host number of the sixth version, perhaps with a zone behind a percent
sign. -/
def isLongNumber (s : List Char) : Bool :=
  match partsAt '%' s with
  | [number] => ((wordParts? number).map areNumberParts).getD false
  | [number, zone] => !zone.isEmpty && ((wordParts? number).map areNumberParts).getD false
  | _ => false

/-- Whether a text is a host number of a later version: a `v`, the version and a point in front. -/
def isLaterNumber (s : List Char) : Bool :=
  match s with
  | 'v' :: rest =>
    let version := rest.takeWhile isHexDigit
    !version.isEmpty &&
      match rest.drop version.length with
      | '.' :: behind => !behind.isEmpty
      | _ => false
  | _ => false

/-- The characters that stand for several others or for one of another width, among them one that
ends a host or a part of it. -/
def disguisedMarks : List Nat :=
  [0x2047, 0x2048, 0x2049, 0x2100, 0x2101, 0x2105, 0x2106, 0x2A74, 0xFE13, 0xFE16, 0xFE55, 0xFE56,
   0xFE5F, 0xFE6B, 0xFF03, 0xFF0F, 0xFF1A, 0xFF1F, 0xFF20]

/-- Whether a host may stand in an address: its brackets come in pairs and enclose a number, and no
mark is disguised in it. -/
def isHost (host : List Char) : Bool :=
  (if host.contains '[' || host.contains ']' then
    let inner := ((host.dropWhile (· ≠ '[')).drop 1).takeWhile (· ≠ ']')
    host.contains '[' && host.contains ']' &&
      if inner.head? = some 'v' then isLaterNumber inner else isLongNumber inner
  else true) && !host.any fun c => disguisedMarks.contains c.toNat

/-! ## Addresses that visitors give -/

/-- The host in an address cannot be one. -/
inductive AddressError where
  | badHost
  deriving Repr, DecidableEq

def isSchemeChar (c : Char) : Bool :=
  c.isAlphanum || c = '+' || c = '-' || c = '.'

/-- The text behind the scheme of an address, all of it where there is none. -/
def dropScheme (s : List Char) : List Char :=
  let scheme := s.takeWhile (· ≠ ':')
  if (scheme.head?.any Char.isAlpha) && scheme.all isSchemeChar && scheme.length < s.length then
    s.drop (scheme.length + 1)
  else s

/-- Whether a character does not count in an address. -/
def isIgnored (c : Char) : Bool :=
  c = '\t' || c = '\n' || c = '\r'

/-- The path of an address, in coded form. Controls and spaces in front do not count, and neither do
tabs and line ends anywhere. -/
def pathOf (address : List Char) : Except AddressError (List Char) :=
  let visible := (address.dropWhile fun c => c.toNat ≤ 0x20).filter (!isIgnored ·)
  let ends := fun (c : Char) => c = '?' || c = '#'
  match dropScheme visible with
  | '/' :: '/' :: rest =>
    let host := rest.takeWhile fun c => c ≠ '/' && !ends c
    if isHost host then .ok ((rest.drop host.length).takeWhile (!ends ·)) else .error .badHost
  | path => .ok (path.takeWhile (!ends ·))

end ModAlmanac.Http
