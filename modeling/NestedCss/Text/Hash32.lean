namespace NestedCss.Hash32

/-- The first of the five odd multipliers of the hash; it closes the mixing of lanes and bytes. -/
def prime1 : UInt32 := 0x9E3779B1

/-- The multiplier for words that enter a lane. -/
def prime2 : UInt32 := 0x85EBCA77

/-- The multiplier for words that fill no lane. -/
def prime3 : UInt32 := 0xC2B2AE3D

/-- The multiplier that closes the mixing of such words. -/
def prime4 : UInt32 := 0x27D4EB2F

/-- The multiplier for bytes behind the last word, and the start for short texts. -/
def prime5 : UInt32 := 0x165667B1

/-- Moves the bits of a word `count` places up; those that leave at the top return at the bottom. -/
def rotate (word : UInt32) (count : UInt32) : UInt32 :=
  (word <<< count) ||| (word >>> (32 - count))

/-- Four bytes as one word, the lowest byte first. -/
def word (a b c d : UInt8) : UInt32 :=
  a.toUInt32 ||| (b.toUInt32 <<< 8) ||| (c.toUInt32 <<< 16) ||| (d.toUInt32 <<< 24)

/-- The whole words of a text and the at most three bytes behind them. -/
def words : List UInt8 → List UInt32 × List UInt8
  | a :: b :: c :: d :: rest =>
    let (whole, tail) := words rest
    (word a b c d :: whole, tail)
  | rest => ([], rest)

/-- The four running values that take the words in turn. -/
structure Lanes where
  first : UInt32
  second : UInt32
  third : UInt32
  fourth : UInt32

namespace Lanes

def initial : Lanes := ⟨prime1 + prime2, prime2, 0, 0 - prime1⟩

/-- What a lane becomes when it takes a word. -/
def mix (lane input : UInt32) : UInt32 :=
  rotate (lane + input * prime2) 13 * prime1

/-- Takes words four at a time, and returns those that do not fill all lanes. -/
def absorb (lanes : Lanes) : List UInt32 → Lanes × List UInt32
  | a :: b :: c :: d :: rest =>
    absorb ⟨mix lanes.first a, mix lanes.second b, mix lanes.third c, mix lanes.fourth d⟩ rest
  | rest => (lanes, rest)

def join (lanes : Lanes) : UInt32 :=
  rotate lanes.first 1 + rotate lanes.second 7 + rotate lanes.third 12 + rotate lanes.fourth 18

end Lanes

/-- Mixes in a word that filled no lane. -/
def takeWord (hash input : UInt32) : UInt32 :=
  rotate (hash + input * prime3) 17 * prime4

/-- Mixes in a byte behind the last word. -/
def takeByte (hash : UInt32) (input : UInt8) : UInt32 :=
  rotate (hash + input.toUInt32 * prime5) 11 * prime1

/-- Spreads every bit over the whole word. -/
def avalanche (hash : UInt32) : UInt32 :=
  let hash := (hash ^^^ (hash >>> 15)) * prime2
  let hash := (hash ^^^ (hash >>> 13)) * prime3
  hash ^^^ (hash >>> 16)

/-- The 32-bit xxHash of a list of bytes with seed 0. The lanes take one word each of every sixteen bytes, so that
a text of fewer does not use them; what is left over is mixed in word by word and byte by byte. -/
def ofBytes (bytes : List UInt8) : UInt32 :=
  let (whole, tail) := words bytes
  let (lanes, loose) := Lanes.initial.absorb whole
  let start := if bytes.length < 16 then prime5 else lanes.join
  avalanche (tail.foldl takeByte (loose.foldl takeWord (start + bytes.length.toUInt32)))

/-- The hash of the UTF-8 bytes of a text. -/
def ofString (text : String) : UInt32 :=
  ofBytes text.toUTF8.toList

end NestedCss.Hash32
