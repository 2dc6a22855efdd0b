/-
# Addresses

Where a request goes, read from a text in the way browsers do.  A text has a *scheme* with a
colon, any number of slashes, an *authority* (a host, with a user in front and a number
behind it at will), a *path*, and perhaps a *query* behind a question mark and a *fragment*
behind a number sign.  Blanks around it do not count, nor do line breaks and tabs in it.

* The scheme is `http` or `https`, in any letter case.  A backslash is a slash.
* Dot segments of the path are resolved, and characters that may not stand in a request are
  written as the bytes of their UTF-8 form.  A segment of two dots takes back the one in
  front of it, unless that names a drive, like `C:`: a drive stays wherever it stands.
* The user and the fragment are not part of where the request goes.  They only count for the
  length, which has a limit.
-/
import RevenueDesk.Chat.Host

namespace RevenueDesk.Chat

structure Address where
  /-- The channel is encrypted. -/
  secure : Bool
  /-- The host, and the number of the port unless it is the usual one. -/
  authority : String
  /-- The path and the query. -/
  target : String
deriving DecidableEq, Inhabited, Repr

/-! ## Encoding -/

def hexCapital (d : Nat) : Char := Char.ofNat (if d < 10 then 48 + d else 55 + d)

def percentEncoded (c : Char) : List Char :=
  (String.utf8EncodeChar c).flatMap fun b =>
    ['%', hexCapital (b.toNat / 16), hexCapital (b.toNat % 16)]

/-- Neither a control character nor outside ASCII. -/
def isPrintable (c : Char) : Bool := 0x20 ≤ c.toNat && c.toNat ≤ 0x7E

/-- The printable characters that may not stand in a path. -/
def refusedInPath : List Char := [' ', '"', '<', '>', '\x60', '#', '?', '\x7b', '\x7d']

def refusedInQuery : List Char := [' ', '"', '#', '<', '>', '\'']

def refusedInFragment : List Char := [' ', '"', '<', '>', '\x60']

def refusedInUser : List Char := refusedInPath ++ "/:;=@[\\]^|".toList

/-- A text with the characters encoded that may not stand in it. -/
def encoded (refused : List Char) (cs : List Char) : List Char :=
  cs.flatMap fun c =>
    if isPrintable c && !refused.contains c then [c] else percentEncoded c

/-! ## Paths -/

def isSlash (c : Char) : Bool := c == '/' || c == '\\'

/-- A segment with encoded dots written as dots. -/
def plainDots : List Char → List Char
  | [] => []
  | [c] => [c]
  | [c, d] => [c, d]
  | c :: d :: e :: cs =>
    if c = '%' ∧ d = '2' ∧ (e = 'e' ∨ e = 'E') then '.' :: plainDots cs
    else c :: plainDots (d :: e :: cs)

/-- The name of a drive: a letter, and a colon or a bar. -/
def isDriveName : List Char → Bool
  | [c, mark] => (Text.isSmall c || Text.isCapital c) && (mark == ':' || mark == '|')
  | _ => false

/-- Segments, last one first, without the last one; one that names a drive stays. -/
def parent : List (List Char) → List (List Char)
  | [] => []
  | s :: before => if isDriveName s then s :: before else before

/-- The segments of a path without dot segments; `before` holds those in front, last one
first.  A dot segment at the end leaves an empty one. -/
def resolveDots (before : List (List Char)) : List (List Char) → List (List Char)
  | [] => before.reverse
  | s :: rest =>
    let kept :=
      if plainDots s = ['.', '.'] then some (parent before)
      else if plainDots s = ['.'] then some before
      else none
    match kept, rest with
    | some kept, [] => ([] :: kept).reverse
    | some kept, rest => resolveDots kept rest
    | none, rest => resolveDots (s :: before) rest

/-- The path as it is sent; it always begins with a slash. -/
def sentPath (path : List Char) : List Char :=
  let segments := match Text.splitWhere isSlash path with
    | [] :: rest => rest
    | segments => segments
  (resolveDots [] (if segments.isEmpty then [[]] else segments)).flatMap fun s =>
    '/' :: encoded refusedInPath s

/-! ## The parts of an address -/

/-- The parts of an address behind its scheme, as they are written. -/
structure Parts where
  secure : Bool
  authority : List Char
  /-- The path, with the slash in front of it. -/
  path : List Char
  query : Option (List Char)
  fragment : Option (List Char)

/-- What stands in front of the first mark, and what stands behind it. -/
def cutAt (mark : Char) (cs : List Char) : List Char × Option (List Char) :=
  match cs.span (· != mark) with
  | (front, []) => (front, none)
  | (front, _ :: rest) => (front, some rest)

def schemeText (secure : Bool) : List Char := (if secure then "https" else "http").toList

/-- A scheme is one of the two, and which one. -/
def secure? (scheme : List Char) : Option Bool :=
  [false, true].find? fun secure => scheme.map Char.toLower == schemeText secure

def Parts.of? (cs : List Char) : Option Parts :=
  match cutAt ':' cs with
  | (_, none) => none
  | (scheme, some rest) =>
    (secure? scheme).map fun secure =>
      let (rest, fragment) := cutAt '#' (rest.dropWhile isSlash)
      let (rest, query) := cutAt '?' rest
      let (authority, path) := rest.span (!isSlash ·)
      ⟨secure, authority, path, query, fragment⟩

/-! ## Authorities -/

/-- An authority without the user and the at sign in front. -/
def withoutUser (authority : List Char) : List Char :=
  (authority.reverse.takeWhile (· != '@')).reverse

/-- A text up to the first colon that is not inside brackets, and the rest. -/
def splitColon (inside : Bool) : List Char → List Char × List Char
  | [] => ([], [])
  | c :: cs =>
    if c = ':' ∧ !inside then ([], c :: cs)
    else
      let inside := if c = '[' then true else if c = ']' then false else inside
      let (host, suffix) := splitColon inside cs
      (c :: host, suffix)

def usualPort (secure : Bool) : Nat := if secure then 443 else 80

/-- The number behind a host, with its colon; the usual one is left out. -/
def portText? (secure : Bool) : List Char → Option (List Char)
  | [] | [_] => some []
  | _ :: digits =>
    match Host.numberIn? 10 digits with
    | some n =>
      if n = usualPort secure then some []
      else if n < 65536 then some (':' :: Digits.numeral n)
      else none
    | none => none

/-- The name and the password of a user, if they stay in the address: a name or a password
that is no text cannot be taken out of it. -/
def keptUser (authority : List Char) : List Char :=
  let user := (Text.dropEndWhile (· != '@') authority).dropLast
  let (name, password) := cutAt ':' user
  let password := password.getD []
  let isText cs := (Text.utf8? (Host.percentDecoded cs)).isSome
  if isText name && (name != [] || isText password) then []
  else
    encoded refusedInUser name
      ++ (if password = [] then [] else ':' :: encoded refusedInUser password) ++ ['@']

/-! ## Addresses -/

namespace Address

/-- How many characters an address may have, in its encoded form. -/
def longest : Nat := 65534

def ofParts? (rules : NameRules) (p : Parts) : Option Address := do
  let (host, suffix) := splitColon false (withoutUser p.authority)
  let host ← Host.of? rules host
  let port ← portText? p.secure suffix
  let authority := host.text ++ port
  let query := p.query.elim [] fun q => '?' :: encoded refusedInQuery q
  let fragment := p.fragment.elim [] fun f => '#' :: encoded refusedInFragment f
  let target := sentPath p.path ++ query
  let whole := schemeText p.secure ++ "://".toList ++ keptUser p.authority ++ authority
    ++ target ++ fragment
  if whole.length ≤ longest then
    some ⟨p.secure, String.ofList authority, String.ofList target⟩
  else none

/-- The characters of a text that count. -/
def written (text : String) : List Char :=
  let cs := Text.dropEndWhile (· ≤ ' ') (text.toList.dropWhile (· ≤ ' '))
  cs.filter fun c => c != '\t' && c != '\n' && c != '\r'

/-- The address that a text denotes. -/
def ofText? (rules : NameRules) (text : String) : Option Address :=
  (Parts.of? (written text)).bind (ofParts? rules)

end Address

/-! ## Where questions are sent -/

/-- The path of the interface of the question service. -/
def interfacePath : String := "/api/v1/generate-sql"

/-- What the interface is reached by: the base without slashes at its end, and the path. -/
def endpoint (base : String) : String :=
  String.ofList (Text.dropEndWhile (· == '/') base.toList) ++ interfacePath

end RevenueDesk.Chat
