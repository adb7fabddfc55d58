import NestedCss.Property.ResolverChain

namespace NestedCss

/-- A part of a property value. -/
inductive Segment where
  /-- A run of word characters. -/
  | word (chars : List Char)
  /-- A quoted span with its quotes; the closing one is missing where the value ends first. -/
  | quoted (chars : List Char)
  /-- Any other character. -/
  | single (char : Char)
  deriving DecidableEq

namespace Segment

/-- ASCII letters and figures, the sigil, the underscore, the hyphen and the backslash. -/
def isWordChar (c : Char) : Bool :=
  c.isAlphanum || c == '$' || c == '_' || c == '-' || c == '\\'

/-- The two quotes. -/
def isQuote (c : Char) : Bool :=
  c == '"' || c == '\''

/-- Splits what follows an opening quote behind the closing one. A backslash takes the character
behind it along, so that a quote there does not close. -/
def closeQuote (mark : Char) : List Char → List Char × List Char
  | [] => ([], [])
  | ['\\'] => (['\\'], [])
  | '\\' :: c :: rest =>
    let (inside, after) := closeQuote mark rest
    ('\\' :: c :: inside, after)
  | c :: rest =>
    if c == mark then ([c], rest)
    else
      let (inside, after) := closeQuote mark rest
      (c :: inside, after)

/-- What follows a quoted span is no longer than what follows its opening quote. -/
theorem closeQuote_length_le (mark : Char) (chars : List Char) :
    (closeQuote mark chars).2.length ≤ chars.length := by
  fun_induction closeQuote mark chars <;> simp_all <;> omega

/-- The segments of a value in order. -/
def ofChars : List Char → List Segment
  | [] => []
  | c :: rest =>
    if isWordChar c then
      word (c :: rest.takeWhile isWordChar) :: ofChars (rest.dropWhile isWordChar)
    else if isQuote c then
      quoted (c :: (closeQuote c rest).1) :: ofChars (closeQuote c rest).2
    else single c :: ofChars rest
termination_by chars => chars.length
decreasing_by
  · exact Nat.lt_succ_of_le (List.dropWhile_suffix _).length_le
  · exact Nat.lt_succ_of_le (closeQuote_length_le c rest)
  · exact Nat.lt_succ_self _

/-- The text of a segment in the value of a property. -/
def resolve (chain : ResolverChain) (property : String) : Segment → String
  | word chars | quoted chars => chain.resolve (String.ofList chars) property
  | single c => String.singleton c

end Segment

/-- The value of a property with every word and quoted span resolved. What a segment resolves to is not looked at
again. -/
def resolveTokens (value property : String) (chain : ResolverChain) : String :=
  String.join ((Segment.ofChars value.toList).map (Segment.resolve chain property))

end NestedCss
