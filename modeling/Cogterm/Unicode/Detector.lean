import Cogterm.Unicode.Tables
import Cogterm.Unicode.Utf16

namespace Cogterm.Unicode

inductive TextMeasurementMode where
  | graphemes
  | wcswidth
  | console
deriving DecidableEq, Repr

-- A std::wstring_view: where its text is in memory, and the text.
structure StringView where
  data : Nat
  chars : List WChar
  nonnull : chars ≠ [] → 0 < data

namespace StringView

def begin (str : StringView) : Nat := str.data
def finish (str : StringView) : Nat := str.data + str.chars.length

def textFrom (str : StringView) (pointer : Nat) : List WChar := str.chars.drop (pointer - str.data)
def textBefore (str : StringView) (pointer : Nat) : List WChar := (str.chars.take (pointer - str.data)).reverse

end StringView

-- The pointer beg is zero when it is null. state is stored flipped by the
-- functions for graphemes.
structure GraphemeState where
  beg : Nat
  len : Nat
  width : Nat
  state : Int
  last : Nat
deriving DecidableEq, Repr

def GraphemeState.initial : GraphemeState := ⟨0, 0, 0, 0, 0⟩

def resetIfOutOfRange (beg finish reset pointer : Nat) : Nat :=
  let ret := if pointer < beg then reset else pointer
  if pointer > finish then reset else ret

def ambiguousWidth : Nat := 1

def resolvedWidth (val : Nat) : Nat := if ucdToCharacterWidth val = 3 then ambiguousWidth else ucdToCharacterWidth val

-- U+FE0F turns the emoji in front of it into a wide one.
def graphemeWidth (cp val : Nat) : Nat := if cp = 0xFE0F then 2 else resolvedWidth val

-- Where the loop over the code points of a cluster stopped. text is what it
-- has not read.
structure Scanned where
  text : List WChar
  width : Nat
  state : Int
  last : Nat
deriving DecidableEq, Repr

-- The two directions differ in how a code point is read and in which of two
-- neighbours is the lead. joins takes the state, the value read last and the next.
structure Direction where
  decode : List WChar → Nat × List WChar
  joins : Nat → Nat → Nat → Nat

def Direction.next : Direction := ⟨utf16NextOrFFFD, fun state lead trail => ucdGraphemeJoins state lead trail⟩
def Direction.prev : Direction := ⟨utf16PrevOrFFFD, fun state trail lead => ucdGraphemeJoins state lead trail⟩

-- The loop from the label fetchNext on, until a code point does not join or
-- the text ends.
def fetchNext (direction : Direction) : Nat → List WChar → Nat → Nat → Int → Scanned
  | 0, text, width, last, state => ⟨text, width, state, last⟩
  | fuel + 1, text, width, last, state =>
    let read := direction.decode text
    let value := ucdLookup read.1
    let joined := direction.joins state.toNat last value
    if ucdGraphemeDone joined then ⟨text, width, ~~~0, 0⟩
    else if read.2.isEmpty then ⟨read.2, width + graphemeWidth read.1 value, joined, value⟩
    else fetchNext direction fuel read.2 (width + graphemeWidth read.1 value) value joined

def scanCluster (direction : Direction) (s : GraphemeState) (text : List WChar) : Scanned :=
  if s.state ≠ 0 then fetchNext direction text.length text s.width s.last (~~~s.state)
  else
    let read := direction.decode text
    let value := ucdLookup read.1
    if read.2.isEmpty then ⟨read.2, graphemeWidth read.1 value, 0, value⟩
    else fetchNext direction text.length read.2 (graphemeWidth read.1 value) value 0

def graphemeNext (s : GraphemeState) (str : StringView) : GraphemeState × Bool :=
  let clusterBeg := resetIfOutOfRange str.begin str.finish str.begin (s.beg + s.len)
  if clusterBeg < str.finish then
    let scanned := scanCluster .next s (str.textFrom clusterBeg)
    let clusterEnd := str.finish - scanned.text.length
    (⟨clusterBeg, clusterEnd - clusterBeg, if scanned.width > 2 then 2 else scanned.width, ~~~scanned.state, scanned.last⟩,
      clusterEnd < str.finish)
  else (s, false)

-- Backwards the text is what stands in front of the cluster, from its end on.
def graphemePrev (s : GraphemeState) (str : StringView) : GraphemeState × Bool :=
  let clusterEnd := resetIfOutOfRange str.begin str.finish str.finish s.beg
  if clusterEnd > str.begin then
    let scanned := scanCluster .prev s (str.textBefore clusterEnd)
    let clusterBeg := str.begin + scanned.text.length
    (⟨clusterBeg, clusterEnd - clusterBeg, if scanned.width > 2 then 2 else scanned.width, ~~~scanned.state, scanned.last⟩,
      clusterBeg > str.begin)
  else (s, false)

-- state is 1 once the cluster has a character.
def wcswidthNextLoop : Nat → List WChar → Nat → Int → Scanned
  | 0, text, width, state => ⟨text, width, state, 0⟩
  | fuel + 1, text, width, state =>
    let next := utf16NextOrFFFD text
    let w := resolvedWidth (ucdLookup next.1)
    if state ≠ 0 ∧ w ≠ 0 then ⟨text, width, 0, 0⟩
    else if next.2.isEmpty then ⟨next.2, width + w, 1, 0⟩
    else wcswidthNextLoop fuel next.2 (width + w) 1

def graphemeNextWcswidth (s : GraphemeState) (str : StringView) : GraphemeState × Bool :=
  let clusterBeg := resetIfOutOfRange str.begin str.finish str.begin (s.beg + s.len)
  if clusterBeg ≥ str.finish then (s, false)
  else
    let text := str.textFrom clusterBeg
    let scanned := wcswidthNextLoop text.length text (if s.state = 0 then 0 else s.width) s.state
    let clusterEnd := str.finish - scanned.text.length
    (⟨clusterBeg, clusterEnd - clusterBeg, scanned.width, scanned.state, s.last⟩, clusterEnd < str.finish)

def wcswidthPrevLoop : Nat → List WChar → Nat → Scanned
  | 0, text, width => ⟨text, width, 0, 0⟩
  | fuel + 1, text, width =>
    let next := utf16PrevOrFFFD text
    let width := width + resolvedWidth (ucdLookup next.1)
    if width ≠ 0 ∨ next.2.isEmpty then ⟨next.2, width, if width ≠ 0 ∧ next.2.isEmpty then 1 else 0, 0⟩
    else wcswidthPrevLoop fuel next.2 width

def graphemePrevWcswidth (s : GraphemeState) (str : StringView) : GraphemeState × Bool :=
  let clusterEnd := resetIfOutOfRange str.begin str.finish str.finish s.beg
  if clusterEnd ≤ str.begin then (s, false)
  else
    let text := str.textBefore clusterEnd
    let scanned := if s.state = 0 then wcswidthPrevLoop text.length text 0 else ⟨text, s.width, 0, 0⟩
    let clusterBeg := str.begin + scanned.text.length
    (⟨clusterBeg, clusterEnd - clusterBeg, scanned.width, scanned.state, s.last⟩, clusterBeg > str.begin)

-- The callback may throw (none). It is given the code point as UTF-16.
structure CodepointWidthDetector where
  mode : TextMeasurementMode
  fallbackMethod : Option (List WChar → Option Bool)
  fallbackCache : List (Nat × Nat)

namespace CodepointWidthDetector

def encodeCodepoint (codepoint : Nat) : List WChar :=
  if codepoint ≤ 0xFFFF then [UInt16.ofNat codepoint]
  else [UInt16.ofNat ((codepoint >>> 10) + 0xD7C0), UInt16.ofNat ((codepoint &&& 0x3FF) ||| 0xDC00)]

def checkFallbackViaCache (cwd : CodepointWidthDetector) (codepoint : Nat) : Nat × CodepointWidthDetector :=
  match cwd.fallbackMethod with
  | none => (1, cwd)
  | some method =>
    match cwd.fallbackCache.lookup codepoint with
    | some width => (width, cwd)
    | none =>
      match method (encodeCodepoint codepoint) with
      | none => (1, cwd)
      | some isWide =>
        let width := if isWide then 2 else 1
        (width, { cwd with fallbackCache := (codepoint, width) :: cwd.fallbackCache })

def graphemeNextConsole (cwd : CodepointWidthDetector) (s : GraphemeState) (str : StringView) :
    CodepointWidthDetector × GraphemeState × Bool :=
  let clusterBeg := resetIfOutOfRange str.begin str.finish str.begin (s.beg + s.len)
  if clusterBeg ≥ str.finish then (cwd, s, false)
  else if s.state = 0 then
    let next := utf16NextOrFFFD (str.textFrom clusterBeg)
    let clusterEnd := str.finish - next.2.length
    let width := ucdToCharacterWidth (ucdLookup next.1)
    let checked := if width = 3 then cwd.checkFallbackViaCache next.1 else (width, cwd)
    (checked.2, ⟨clusterBeg, clusterEnd - clusterBeg, checked.1, if clusterEnd ≥ str.finish then 1 else 0, s.last⟩,
      clusterEnd < str.finish)
  else (cwd, ⟨clusterBeg, 0, s.width, 0, s.last⟩, true)

def GraphemeNext (cwd : CodepointWidthDetector) (s : GraphemeState) (str : StringView) :
    CodepointWidthDetector × GraphemeState × Bool :=
  match cwd.mode with
  | .graphemes => (cwd, graphemeNext s str)
  | .wcswidth => (cwd, graphemeNextWcswidth s str)
  | .console => cwd.graphemeNextConsole s str

end CodepointWidthDetector

end Cogterm.Unicode
