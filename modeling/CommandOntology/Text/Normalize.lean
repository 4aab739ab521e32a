import Std.Data.HashMap
import CommandOntology.Text.DecompositionData
import CommandOntology.Text.Case

set_option autoImplicit false

namespace CommandOntology.Text

/-- A decomposition mapping; `composes` says that the right side composes back. -/
structure Decomposition where
  code : Nat
  parts : List Nat
  composes : Bool

/-- Reads an entry whose mark between the two sides tells its kind. -/
def Decomposition.ofText (text : List Char) : Option Decomposition :=
  let code := hexNumber (text.takeWhile isHexDigit)
  match text.dropWhile isHexDigit with
  | [] => none
  | mark :: parts => some ⟨code, (splitOn ' ' parts).map hexNumber, mark == '='⟩

def decompositions : List Decomposition :=
  (splitOn ';' (dataChars decompositionText)).filterMap Decomposition.ofText

def decompositionTable : Std.HashMap Nat (List Nat) :=
  decompositions.foldl (fun table d => table.insert d.code d.parts) ∅

def compositionTable : Std.HashMap (Nat × Nat) Nat :=
  decompositions.foldl
    (fun table d =>
      match d.composes, d.parts with
      | true, [a, b] => table.insert (a, b) d.code
      | _, _ => table)
    ∅

structure CombiningRun where
  first : Nat
  count : Nat
  combiningClass : Nat
  deriving Inhabited

def CombiningRun.ofText (text : List Char) : Option CombiningRun :=
  match splitOn ' ' text with
  | [first, count, value] => some ⟨hexNumber first, decimalNumber count, decimalNumber value⟩
  | _ => none

def combiningRuns : Array CombiningRun :=
  ((splitOn ';' (dataChars combiningClassText)).filterMap CombiningRun.ofText).toArray

/-- The combining class of a code point; zero for one that does not combine. -/
def combiningClass (code : Nat) : Nat :=
  if code < 0x300 then 0
  else
    let run := combiningRuns.getD
      (lastStart (fun i => (combiningRuns.getD i default).first) code 0 combiningRuns.size) default
    if run.first ≤ code && code < run.first + run.count then run.combiningClass else 0

def hangulParts (code : Nat) : List Nat :=
  let index := code - 0xac00
  let tail := index % 28
  [0x1100 + index / 588, 0x1161 + index % 588 / 28] ++ if tail = 0 then [] else [0x11a7 + tail]

def isHangulSyllable (code : Nat) : Bool :=
  0xac00 ≤ code && code < 0xac00 + 11172

def decompose : (depth : Nat) → Nat → List Nat
  | 0, code => [code]
  | depth + 1, code =>
    if isHangulSyllable code then hangulParts code
    else
      match decompositionTable[code]? with
      | some parts => parts.flatMap (decompose depth)
      | none => [code]

/-- Puts a combining mark before the marks of a higher class that end the text so far, which is held
last first. -/
def insertMark (code : Nat) : List Nat → List Nat
  | [] => [code]
  | last :: before =>
    if combiningClass code ≠ 0 && combiningClass code < combiningClass last then
      last :: insertMark code before
    else code :: last :: before

/-- Puts the marks after each starting character in the order of their classes. -/
def orderMarks (codes : List Nat) : List Nat :=
  (codes.foldl (fun before code => insertMark code before) []).reverse

def composePair (a b : Nat) : Option Nat :=
  if 0x1100 ≤ a && a < 0x1113 && 0x1161 ≤ b && b < 0x1176 then
    some (0xac00 + ((a - 0x1100) * 21 + (b - 0x1161)) * 28)
  else if isHangulSyllable a && (a - 0xac00) % 28 = 0 && 0x11a7 < b && b < 0x11c3 then
    some (a + (b - 0x11a7))
  else compositionTable[(a, b)]?

/-- Composes a text after its `starter`, with the marks that stay `pending` between, last first. -/
def composeFrom (starter : Nat) (pending : List Nat) : List Nat → List Nat
  | [] => starter :: pending.reverse
  | code :: rest =>
    let blocked :=
      match pending with
      | [] => false
      | last :: _ => combiningClass code ≤ combiningClass last
    match if blocked then none else composePair starter code with
    | some composed => composeFrom composed pending rest
    | none =>
      if combiningClass code = 0 then (starter :: pending.reverse) ++ composeFrom code [] rest
      else composeFrom starter (code :: pending) rest

/-- Composes a text; marks before the first starting character stay as they are. -/
def compose (codes : List Nat) : List Nat :=
  let marks := codes.takeWhile fun code => combiningClass code ≠ 0
  match codes.dropWhile fun code => combiningClass code ≠ 0 with
  | [] => marks
  | starter :: rest => marks ++ composeFrom starter [] rest

def normalize (text : String) : String :=
  let chars := text.toList
  if chars.all fun c => c.toNat < 128 then text
  else
    String.ofList
      ((compose (orderMarks (chars.flatMap fun c => decompose 4 c.toNat))).map Char.ofNat)

end CommandOntology.Text
