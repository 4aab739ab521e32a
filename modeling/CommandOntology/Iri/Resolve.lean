import CommandOntology.Text.Layout
import CommandOntology.Text.Normalize
import CommandOntology.Text.Quoted

set_option autoImplicit false

/-!
# Resolving references against a base

A reference is taken apart into scheme, authority, path, parameters, query and fragment, completed from
the base, and written again. Only schemes with hierarchical paths are resolved; under other schemes a
reference stays as it is.
-/

namespace CommandOntology.Iri

open CommandOntology.Text

inductive ReferenceError
  | unbalancedBrackets
  | futureAddress
  | notAddress (host : String)
  | fourPartAddress
  | ambiguousAuthority (authority : String)
  deriving DecidableEq, Repr

def ReferenceError.message : ReferenceError → String
  | .unbalancedBrackets => "Invalid IPv6 URL"
  | .futureAddress => "IPvFuture address is invalid"
  | .notAddress host => quoted host ++ " does not appear to be an IPv4 or IPv6 address"
  | .fourPartAddress => "An IPv4 address cannot be in brackets"
  | .ambiguousAuthority authority =>
    "netloc '" ++ authority ++ "' contains invalid characters under NFKC normalization"

structure Reference where
  scheme : List Char
  authority : List Char
  path : List Char
  parameters : List Char
  query : List Char
  fragment : List Char
  deriving DecidableEq, Repr

def relativeSchemes : List String :=
  ["", "ftp", "http", "gopher", "nntp", "imap", "wais", "file", "https", "shttp", "mms", "prospero",
    "rtsp", "rtsps", "rtspu", "sftp", "svn", "svn+ssh", "ws", "wss"]

def authoritySchemes : List String :=
  ["", "ftp", "http", "gopher", "nntp", "telnet", "imap", "wais", "file", "mms", "https", "shttp",
    "snews", "prospero", "rtsp", "rtsps", "rtspu", "rsync", "svn", "svn+ssh", "sftp", "nfs", "git",
    "git+ssh", "ws", "wss"]

def parameterSchemes : List String :=
  ["", "ftp", "hdl", "prospero", "http", "imap", "https", "shttp", "rtsp", "rtsps", "rtspu", "sip",
    "sips", "mms", "sftp", "tel"]

def isSchemeChar (c : Char) : Bool :=
  isAsciiAlphanumeric c || c == '+' || c == '-' || c == '.'

/-- The scheme at the start of a reference and what follows its colon. -/
def splitScheme? (text : List Char) : Option (List Char × List Char) :=
  match partitionAt ':' text with
  | (c :: scheme, some rest) =>
    if isAsciiLetter c && scheme.all isSchemeChar then some (c :: scheme, rest) else none
  | _ => none

def isAbsolute (text : List Char) : Bool :=
  (splitScheme? text).isSome

def isOctet (text : List Char) : Bool :=
  !text.isEmpty && text.all isAsciiDigit && text.length ≤ 3 &&
    (text.length == 1 || text.head? != some '0') &&
    text.foldl (fun n c => 10 * n + digitValue c) 0 ≤ 255

def isFourPartAddress (host : List Char) : Bool :=
  let parts := splitOn '.' host
  parts.length == 4 && parts.all isOctet

def isHexGroup (text : List Char) : Bool :=
  !text.isEmpty && text.length ≤ 4 && text.all isHexDigit

def areAddressGroups (groups : List (List Char)) : Bool :=
  let inner := groups.tail.dropLast
  match inner.count [] with
  | 0 => groups.length == 8 && groups.all isHexGroup
  | 1 =>
    let before := groups.head?.toList ++ inner.takeWhile (!·.isEmpty)
    let after := (inner.dropWhile (!·.isEmpty)).tail ++ groups.getLast?.toList
    let before := if before = [[]] then [] else before
    let after := if after = [[]] then [] else after
    before.all isHexGroup && after.all isHexGroup && before.length + after.length < 8
  | _ => false

/-- An address of colon-separated groups; the last two may be written in four parts. -/
def isGroupAddress (host : List Char) : Bool :=
  let (address, zone) := partitionAt '%' host
  let zoneFits :=
    match zone with
    | none => true
    | some z => !z.isEmpty && !z.contains '%'
  let parts := splitOn ':' address
  let last := parts.getLast?.getD []
  let groups := if last.contains '.' then parts.dropLast ++ [['0'], ['0']] else parts
  zoneFits && 3 ≤ parts.length && (!last.contains '.' || isFourPartAddress last) &&
    groups.length ≤ 9 && areAddressGroups groups

def isFutureAddress (host : List Char) : Bool :=
  match host with
  | 'v' :: rest =>
    match partitionAt '.' rest with
    | (version, some address) =>
      !version.isEmpty && version.all isHexDigit && !address.isEmpty && !address.contains '\n'
    | _ => false
  | _ => false

def checkBrackets (authority : List Char) : Except ReferenceError Unit :=
  if authority.contains '[' != authority.contains ']' then .error .unbalancedBrackets
  else if authority.contains '[' then
    let host := (partitionAt ']' ((partitionAt '[' authority).2.getD [])).1
    if host.head? = some 'v' then
      if isFutureAddress host then .ok () else .error .futureAddress
    else if isFourPartAddress host then .error .fourPartAddress
    else if isGroupAddress host then .ok ()
    else .error (.notAddress (String.ofList host))
  else .ok ()

/-- Checks that no delimiter appears in an authority when it is normalized. -/
def checkAuthority (authority : List Char) : Except ReferenceError Unit :=
  if authority.all fun c => c.toNat < 128 then .ok ()
  else
    let plain := String.ofList (authority.filter fun c => !("@:#?".toList.contains c))
    let normal := normalize plain
    if normal ≠ plain && normal.toList.any fun c => "/?#@:".toList.contains c then
      .error (.ambiguousAuthority (String.ofList authority))
    else .ok ()

/-- Control characters and blanks at the start, and tabs and line breaks anywhere, do not count. -/
def cleanReference (text : List Char) : List Char :=
  (text.dropWhile fun c => c.toNat ≤ 0x20).filter fun c => c != '\t' && c != '\r' && c != '\n'

def splitParameters (path : List Char) : List Char × List Char :=
  let last := (path.reverse.takeWhile (· ≠ '/')).reverse
  let before := path.take (path.length - last.length)
  match partitionAt ';' last with
  | (segment, some parameters) => (before ++ segment, parameters)
  | (_, none) => (path, [])

/-- Takes a reference apart; `scheme` is the one it has if it names none. -/
def Reference.parse (scheme : List Char) (text : List Char) : Except ReferenceError Reference := do
  let text := cleanReference text
  let (scheme, rest) :=
    match splitScheme? text with
    | some (named, rest) => (named.map asciiLower, rest)
    | none => (scheme, text)
  let (authority, rest) :=
    match rest with
    | '/' :: '/' :: rest =>
      (rest.takeWhile fun c => c ≠ '/' && c ≠ '?' && c ≠ '#',
        rest.dropWhile fun c => c ≠ '/' && c ≠ '?' && c ≠ '#')
    | _ => ([], rest)
  checkBrackets authority
  let (rest, fragment) := partitionAt '#' rest
  let (path, query) := partitionAt '?' rest
  checkAuthority authority
  let (path, parameters) :=
    if parameterSchemes.contains (String.ofList scheme) then splitParameters path else (path, [])
  return ⟨scheme, authority, path, parameters, query.getD [], fragment.getD []⟩

def Reference.chars (r : Reference) : List Char :=
  let path := if r.parameters.isEmpty then r.path else r.path ++ ';' :: r.parameters
  let hasAuthority :=
    !r.authority.isEmpty ||
      (!r.scheme.isEmpty && authoritySchemes.contains (String.ofList r.scheme)) ||
      beginsWith ['/', '/'] path
  let hierarchy :=
    if hasAuthority then
      '/' :: '/' :: r.authority ++
        if !path.isEmpty && path.head? != some '/' then '/' :: path else path
    else path
  (if r.scheme.isEmpty then [] else r.scheme ++ [':']) ++ hierarchy ++
    (if r.query.isEmpty then [] else '?' :: r.query) ++
    (if r.fragment.isEmpty then [] else '#' :: r.fragment)

/-- Follows the segments of a path; a segment of two dots goes one back. The path so far is held last
segment first. -/
def followSegments (followed : List (List Char)) : List (List Char) → List (List Char)
  | [] => followed
  | segment :: rest =>
    if segment = ['.', '.'] then followSegments followed.tail rest
    else if segment = ['.'] then followSegments followed rest
    else followSegments (segment :: followed) rest

def dropEmptySegments : List (List Char) → List (List Char)
  | [] => []
  | [segment] => [segment]
  | first :: rest => first :: rest.dropLast.filter (!·.isEmpty) ++ rest.getLast?.toList

def mergePaths (basePath path : List Char) : List Char :=
  let segments :=
    if path.head? = some '/' then splitOn '/' path
    else
      let baseSegments := splitOn '/' basePath
      let directory :=
        if baseSegments.getLast? = some [] then baseSegments else baseSegments.dropLast
      dropEmptySegments (directory ++ splitOn '/' path)
  let followed := followSegments [] segments
  let endsInDots := segments.getLast? = some ['.'] || segments.getLast? = some ['.', '.']
  let followed := if endsInDots then [] :: followed else followed
  let merged := ['/'].intercalate followed.reverse
  if merged.isEmpty then ['/'] else merged

def complete (base reference : Reference) : Reference :=
  let hasAuthority := authoritySchemes.contains (String.ofList reference.scheme)
  if hasAuthority && !reference.authority.isEmpty then reference
  else
    let authority := if hasAuthority then base.authority else reference.authority
    if reference.path.isEmpty && reference.parameters.isEmpty then
      { reference with
        authority
        path := base.path
        parameters := base.parameters
        query := if reference.query.isEmpty then base.query else reference.query }
    else { reference with authority, path := mergePaths base.path reference.path }

def resolveChars (base reference : List Char) : Except ReferenceError (List Char) :=
  if base.isEmpty then .ok reference
  else if reference.isEmpty then .ok base
  else do
    let b ← Reference.parse [] base
    let r ← Reference.parse b.scheme reference
    if r.scheme ≠ b.scheme || !relativeSchemes.contains (String.ofList r.scheme) then
      return reference
    else return (complete b r).chars

def resolve (base reference : String) : Except ReferenceError String :=
  (resolveChars base.toList reference.toList).map String.ofList

end CommandOntology.Iri
