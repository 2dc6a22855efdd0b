/-
# Media types

A request that carries JSON says so in its content type: `application/json`, or a type
under `application` whose suffix, behind the last plus sign, is `json`.  Parameters may
follow, behind a semicolon each; they mean nothing here but have to be well-formed.
-/
import RevenueDesk.Text.Letter

namespace RevenueDesk.Web.MediaType

def isToken (c : Char) : Bool :=
  Text.isSmall c || Text.isCapital c || Text.isDigit c || "!#$%&'*+-.^_\x60|~".toList.contains c

def isQuotable (c : Char) : Bool := 0x20 ≤ c.toNat && c.toNat != 0x7F && c.toNat < 0x80

/-- The parameter that a text begins with, without the semicolon in front of it, and the
parameters behind it.  Names are followed by an equals sign; values are names or stand
between quotes, with at least one character between them. -/
def dropParameter? (cs : List Char) : Option (List Char) :=
  match cs.takeWhile isToken, cs.dropWhile isToken with
  | _ :: _, '=' :: '"' :: c :: value =>
    if isQuotable c then
      match (value.dropWhile fun c => isQuotable c && c != '"') with
      | '"' :: rest =>
        match rest.dropWhile (· == ' ') with
        | [] => some []
        | ';' :: rest => some rest
        | _ => none
      | _ => none
    else none
  | _ :: _, '=' :: value =>
    match value.takeWhile isToken, value.dropWhile isToken with
    | _, [] => some []
    | _ :: _, ';' :: rest => some rest
    | _, _ => none
  | _, _ => none

/-- The parameters behind a semicolon are well-formed; spaces may stand in front of each of
them, and the last one may be empty.  Every parameter takes a step. -/
def wellFormedParameters : (steps : Nat) → List Char → Bool
  | 0, _ => false
  | steps + 1, cs =>
    match cs.dropWhile (· == ' ') with
    | [] => true
    | cs =>
      match dropParameter? cs with
      | some rest => wellFormedParameters steps rest
      | none => false

/-- A content type, cut into the type, the subtype with its suffix, and the parameters, if
there is a semicolon. -/
def parts (cs : List Char) : List Char × List Char × Option (List Char) :=
  let type := cs.takeWhile (· != '/')
  let rest := (cs.dropWhile (· != '/')).drop 1
  let subtype := rest.takeWhile (· != ';')
  match rest.dropWhile (· != ';') with
  | [] => (type, subtype, none)
  | _ :: parameters => (type, subtype, some parameters)

/-- The subtype without its suffix, and the suffix.  A plus sign at the beginning is part of
the subtype. -/
def suffix (subtype : List Char) : List Char × Option (List Char) :=
  match subtype with
  | [] => ([], none)
  | c :: cs =>
    if cs.contains '+' then
      (c :: ((cs.reverse.dropWhile (· != '+')).drop 1).reverse,
        some ((cs.reverse.takeWhile (· != '+')).reverse))
    else (c :: cs, none)

/-- The content type is one of JSON. -/
def isJson (contentType : String) : Bool :=
  let (type, subtype, parameters) := parts contentType.toList
  let (name, suffix) := suffix subtype
  type.all isToken && subtype.all isToken && !subtype.isEmpty
    && Text.sameWord "application" type
    && (Text.sameWord "json" name || suffix.any (Text.sameWord "json"))
    && match parameters with
      | none => true
      | some ps => wellFormedParameters (ps.length + 1) ps

end RevenueDesk.Web.MediaType
