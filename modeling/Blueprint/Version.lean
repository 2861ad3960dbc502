import Blueprint.Text.Basic
import Blueprint.Text.Quotation

/-!
# Semantic versions

A version is three numbers, optional pre-release identifiers after a hyphen and optional build
identifiers after a plus sign. `Version.parse` reads the whole text or says what is wrong with the
first part that is not as it should be; `VersionFault.message` words that.
-/

namespace Blueprint

/-- The parts of a version, in the order in which they are written. -/
inductive VersionPart where
  | major
  | minor
  | patch
  | preRelease
  | build
deriving DecidableEq, Repr

namespace VersionPart

def name : VersionPart → String
  | major => "major version number"
  | minor => "minor version number"
  | patch => "patch version number"
  | preRelease => "pre-release identifier"
  | build => "build metadata"

end VersionPart

/-- What is wrong with a text that is not a version. -/
inductive VersionFault where
  | empty
  | unexpectedEnd (part : VersionPart)
  | unexpectedChar (part : VersionPart) (found : Char)
  | unexpectedCharAfter (part : VersionPart) (found : Char)
  | leadingZero (part : VersionPart)
  | overflow (part : VersionPart)
  | emptySegment (part : VersionPart)
deriving DecidableEq, Repr

namespace VersionFault

def message : VersionFault → String
  | empty => "empty string, expected a semver version"
  | unexpectedEnd part => "unexpected end of input while parsing " ++ part.name
  | unexpectedChar part found =>
    "unexpected character " ++ String.ofList (Text.quotedChar found) ++ " while parsing " ++ part.name
  | unexpectedCharAfter part found =>
    "unexpected character " ++ String.ofList (Text.quotedChar found) ++ " after " ++ part.name
  | leadingZero part => "invalid leading zero in " ++ part.name
  | overflow part => "value of " ++ part.name ++ " exceeds u64::MAX"
  | emptySegment part => "empty identifier segment in " ++ part.name

end VersionFault

/-- A semantic version. -/
structure Version where
  major : Nat
  minor : Nat
  patch : Nat
  preRelease : List String
  build : List String
deriving DecidableEq, Repr

namespace Version

/-- The characters of pre-release and build identifiers. -/
def isIdentifierChar (c : Char) : Bool :=
  c.isAlphanum || c == '-'

/-- Reads digits of a number whose digits so far have the given value; `started` says whether there
are any. A zero takes no further digit, and the value has at most 64 bits. -/
def readDigits (part : VersionPart) :
    (started : Bool) → (value : Nat) → List Char → Except VersionFault (Nat × List Char)
  | false, _, [] => .error (.unexpectedEnd part)
  | true, value, [] => .ok (value, [])
  | started, value, c :: rest =>
    if c.isDigit then
      if started ∧ value = 0 then .error (.leadingZero part)
      else
        let next := value * 10 + (c.toNat - '0'.toNat)
        if next < 18446744073709551616 then readDigits part true next rest else .error (.overflow part)
    else if started then .ok (value, c :: rest)
    else .error (.unexpectedChar part c)

def readNumber (part : VersionPart) (text : List Char) : Except VersionFault (Nat × List Char) :=
  readDigits part false 0 text

/-- Reads the point after a number. -/
def readPoint (part : VersionPart) : List Char → Except VersionFault (List Char)
  | [] => .error (.unexpectedEnd part)
  | c :: rest => if c = '.' then .ok rest else .error (.unexpectedCharAfter part c)

/-- Checks one identifier: it is not empty, and in a pre-release a number has no leading zero. -/
def checkSegment (part : VersionPart) (segment : List Char) : Except VersionFault String :=
  if segment.isEmpty then .error (.emptySegment part)
  else if part = .preRelease ∧ segment.all Char.isDigit ∧ 1 < segment.length ∧
      segment.head? = some '0' then
    .error (.leadingZero part)
  else .ok (String.ofList segment)

/-- Reads identifiers separated by points. -/
def readSegments (part : VersionPart) (text : List Char) :
    Except VersionFault (List String × List Char) := do
  let inPart (c : Char) : Bool := isIdentifierChar c || c == '.'
  let segments ← (Text.splitAtChar '.' (text.takeWhile inPart)).mapM (checkSegment part)
  return (segments, text.dropWhile inPart)

/-- Reads identifiers after a mark, if the mark is there; says which part was read last. -/
def readMarked (mark : Char) (part before : VersionPart) :
    List Char → Except VersionFault (List String × VersionPart × List Char)
  | [] => .ok ([], before, [])
  | c :: rest =>
    if c = mark then do
      let (segments, rest) ← readSegments part rest
      return (segments, part, rest)
    else .ok ([], before, c :: rest)

/-- Reads a text that is a version from its first to its last character. -/
def parse (text : List Char) : Except VersionFault Version := do
  if text.isEmpty then throw .empty
  let (major, rest) ← readNumber .major text
  let rest ← readPoint .major rest
  let (minor, rest) ← readNumber .minor rest
  let rest ← readPoint .minor rest
  let (patch, rest) ← readNumber .patch rest
  let (preRelease, part, rest) ← readMarked '-' .preRelease .patch rest
  let (build, part, rest) ← readMarked '+' .build part rest
  match rest with
  | [] => return { major, minor, patch, preRelease, build }
  | c :: _ => throw (.unexpectedCharAfter part c)

def toText (version : Version) : String :=
  let marked (mark : String) (segments : List String) : String :=
    if segments.isEmpty then "" else mark ++ String.intercalate "." segments
  let number (n : Nat) : String := String.ofList (Text.decimal n)
  number version.major ++ "." ++ number version.minor ++ "." ++ number version.patch ++
    marked "-" version.preRelease ++ marked "+" version.build

end Version
end Blueprint
