import TermScene.Text.Host
import TermScene.Text.Quoted

/-!
# Addresses of documents

The address of a document is a scheme, an authority behind two slashes, and a path: the scheme and the
authority can be missing, and a query and a fragment can follow, which say nothing about where the
document is. What makes a text no address is always a fault of its authority: in one with brackets the
host is a long number that fills them, and no character may pass for a mark between the parts of an
address.
-/

namespace TermScene

namespace Editor

/-- The parts of an address that tell where a document is. -/
structure Address where
  scheme : List Char
  authority : List Char
  path : List Char
  deriving DecidableEq, Repr

/-- Why a text is no address. -/
inductive AddressFault where
  | misplacedBracket
  | laterVersion
  | shortNumber
  | notNumeric (host : String)
  | disguisedMark (authority : String)
  deriving DecidableEq, Repr

def AddressFault.message : AddressFault → String
  | .misplacedBracket => "Invalid IPv6 URL"
  | .laterVersion => "IPvFuture address is invalid"
  | .shortNumber => "An IPv4 address cannot be in brackets"
  | .notNumeric host => quoted host ++ " does not appear to be an IPv4 or IPv6 address"
  | .disguisedMark authority =>
      "netloc '" ++ authority ++ "' contains invalid characters under NFKC normalization"

namespace Address

/-- The characters of an address that count: blanks and controls in front of it do not, nor do tabs and
line breaks anywhere. -/
def significant (chars : List Char) : List Char :=
  (chars.dropWhile fun char => decide (char.toNat ≤ 0x20)).filter fun char =>
    char ≠ '\t' && char ≠ '\r' && char ≠ '\n'

/-- Whether a word can be a scheme: letters, digits and a few marks, beginning with a letter. -/
def isScheme (word : List Char) : Bool :=
  word.head?.any Char.isAlpha && word.all fun char => char.isAlphanum || "+-.".contains char

/-- The scheme before the first colon, in small letters, and what follows. -/
def splitScheme (chars : List Char) : List Char × List Char :=
  let word := chars.takeWhile (· ≠ ':')
  match chars.drop word.length with
  | _ :: rest => if isScheme word then (word.map Char.toLower, rest) else ([], chars)
  | [] => ([], chars)

/-- The authority behind two slashes, and what follows. -/
def splitAuthority : List Char → List Char × List Char
  | '/' :: '/' :: rest =>
      let authority := rest.takeWhile fun char => !"/?#".contains char
      (authority, rest.drop authority.length)
  | chars => ([], chars)

/-- The schemes in which parameters can stand behind a path. -/
def schemesWithParameters : List String :=
  ["", "ftp", "hdl", "prospero", "http", "imap", "https", "shttp", "rtsp", "rtspu", "sip", "sips",
    "mms", "sftp", "tel"]

/-- A path without the parameters behind a semicolon in its last part. -/
def withoutParameters (path : List Char) : List Char :=
  let last := (path.reverse.takeWhile (· ≠ '/')).reverse
  path.take (path.length - last.length) ++ last.takeWhile (· ≠ ';')

/-- The host and the port of an authority: what stands behind its last at sign. -/
def hostAndPort (authority : List Char) : List Char :=
  (authority.reverse.takeWhile (· ≠ '@')).reverse

/-- Characters whose compatible forms hold a mark that stands between the parts of an address. -/
def disguisedMarks : List Char :=
  ['\u2047', '\u2048', '\u2049', '\u2100', '\u2101', '\u2105', '\u2106', '\u2A74', '\uFE13',
    '\uFE16', '\uFE55', '\uFE56', '\uFE5F', '\uFE6B', '\uFF03', '\uFF0F', '\uFF1A', '\uFF1F',
    '\uFF20']

/-- What is wrong with the host of an authority that has brackets. -/
def hostFault? (host : List Char) : Option AddressFault :=
  if host.head? = some 'v' then if Host.isLaterVersion host then none else some .laterVersion
  else if Host.isShort host then some .shortNumber
  else if Host.isLong host then none
  else some (.notNumeric (String.ofList host))

/-- What is wrong with the host and the port of an authority that has brackets. Nothing stands in front
of the opening bracket, and nothing but a port behind the closing one. -/
def placeFault? (place : List Char) : Option AddressFault :=
  match place with
  | '[' :: bracketed =>
      let host := bracketed.takeWhile (· ≠ ']')
      match bracketed.drop (host.length + 1) with
      | [] => hostFault? host
      | ':' :: _ => hostFault? host
      | _ => some .misplacedBracket
  | _ =>
      if place.contains '[' then some .misplacedBracket
      else hostFault? (place.takeWhile (· ≠ ':'))

/-- What is wrong with the brackets of an authority. -/
def bracketFault? (authority : List Char) : Option AddressFault :=
  match authority.contains '[', authority.contains ']' with
  | true, true => placeFault? (hostAndPort authority)
  | false, false => none
  | _, _ => some .misplacedBracket

/-- What is wrong with an authority. Its brackets are looked at first. -/
def authorityFault? (authority : List Char) : Option AddressFault :=
  match bracketFault? authority with
  | some fault => some fault
  | none =>
      if authority.any disguisedMarks.contains then some (.disguisedMark (String.ofList authority))
      else none

def ofText (text : String) : Except AddressFault Address :=
  let (scheme, rest) := splitScheme (significant text.toList)
  let (authority, rest) := splitAuthority rest
  match authorityFault? authority with
  | some fault => .error fault
  | none =>
      let path := rest.takeWhile fun char => !"?#".contains char
      let hasParameters := schemesWithParameters.contains (String.ofList scheme)
      .ok ⟨scheme, authority, if hasParameters then withoutParameters path else path⟩

/-- Where a document's file lies. A file's authority is the computer that holds it, and a drive's letter
stands at the front in small. -/
def file (address : Address) : String :=
  let path := percentDecoded (String.ofList address.path)
  if address.scheme = "file".toList ∧ address.authority ≠ [] ∧ address.path ≠ [] then
    "//" ++ percentDecoded (String.ofList address.authority) ++ path
  else
    match path.toList with
    | '/' :: letter :: ':' :: rest =>
        if letter.isAlpha then String.ofList (letter.toLower :: ':' :: rest) else path
    | _ => path

end Address

end Editor

end TermScene
