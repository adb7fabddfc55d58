import Mathlib
import NestedCss.Proofs.DeclaredReferences

namespace NestedCss

theorem ResolverChain.declines_nil (token property : String) : Declines [] token property :=
  List.forall_mem_nil _

namespace Segment

open ResolverChain (Refers declines_nil)

variable {segment left right : Segment} {segments : List Segment} {value name : List Char}

/-- The segment is no run that refers to a name. -/
def Unreferring (segment : Segment) : Prop :=
  ∀ run name, segment = word run → ¬ Refers run name

/-- The segments of a reference. -/
def ofReference (name : List Char) : List Segment :=
  [word "var".toList, single '(', word ("--".toList ++ PropertyName.hyphenate name), single ')']

theorem hyphenate_word (own : ∀ c ∈ name, isWordChar c) : ∀ c ∈ PropertyName.hyphenate name, isWordChar c := by
  have lowered : ∀ c ∈ name, c.isUpper → isWordChar c.toLower := by
    intro c _ capital
    simp [isWordChar, Char.isAlphanum, Char.isAlpha, capital]
  exact PropertyName.forall_mem_hyphenate (by decide) lowered fun c inside _ => own c inside

/-- A reference is divided into `var`, a parenthesis, the name of the custom property, and a parenthesis. -/
theorem ofReference_division (own : ∀ c ∈ name, isWordChar c) :
    Division (ofReference name) (PropertyName.reference (String.ofList name)).toList where
  text := by simp [ofReference, chars, PropertyName.reference, PropertyName.hyphenated]
  proper := by
    have function : (word "var".toList).Proper := ⟨by simp, by simp; decide⟩
    have argument : (word ("--".toList ++ PropertyName.hyphenate name)).Proper := by
      refine ⟨by simp, ?_⟩
      rw [List.forall_mem_append]
      exact ⟨by simp; decide, hyphenate_word own⟩
    simp only [ofReference, List.forall_mem_cons]
    exact ⟨function, ⟨by decide, by decide⟩, argument, ⟨by decide, by decide⟩, List.forall_mem_nil _⟩
  inOrder := by simp [ofReference, Precedes]

theorem unreferring_ofReference (name : List Char) : ∀ segment ∈ ofReference name, segment.Unreferring := by
  rintro segment inside run other rfl refers
  have noSigil : run.head? ≠ some '$' := by
    simp only [ofReference, List.mem_cons, word.injEq, reduceCtorEq, false_or, List.not_mem_nil, or_false] at inside
    rcases inside with rfl | rfl <;> simp
  rcases refers.sigils with rfl | rfl <;> exact noSigil rfl

/-- A segment that refers to nothing is resolved to itself. -/
theorem resolve_of_unreferring (proper : segment.Proper) (unreferring : segment.Unreferring) (property : String) :
    segment.resolve [] property = String.ofList segment.chars := by
  cases segment with
  | word run =>
    refine ResolverChain.resolve_unreferred (declines_nil _ _) fun name => ?_
    rw [String.toList_ofList]
    exact unreferring run name rfl
  | quoted span =>
    refine ResolverChain.resolve_unreferred (declines_nil _ _) fun name => ?_
    rw [String.toList_ofList]
    exact ResolverChain.not_refers_of_quoted proper
  | single c => exact String.singleton_eq_ofList

/-- The segments of the text that a segment becomes where there are no rules to ask. -/
def settled (property : String) (segment : Segment) : List Segment :=
  ofChars (segment.resolve [] property).toList

/-- A run that refers to a name becomes a reference, and everything else stays. -/
theorem settled_cases (proper : segment.Proper) (property : String) :
    (∃ run name, segment = word run ∧ Refers run name ∧ segment.settled property = ofReference name) ∨
    segment.Unreferring ∧ segment.settled property = [segment] := by
  by_cases reference : ∃ run name, segment = word run ∧ Refers run name
  · obtain ⟨run, name, rfl, refers⟩ := reference
    have own : ∀ c ∈ name, isWordChar c := by
      intro c inside
      rcases refers.sigils with rfl | rfl <;> exact proper.2 c (by simp [inside])
    have token : Refers (String.ofList run).toList (String.ofList name).toList := by simpa using refers
    refine .inl ⟨run, name, rfl, refers, ?_⟩
    rw [settled, resolve, ResolverChain.resolve_reference token (declines_nil _ _) (declines_nil _ _),
      ← (ofReference_division own).eq_ofChars]
  · have unreferring : segment.Unreferring := fun run name same refers => reference ⟨run, name, same, refers⟩
    refine .inr ⟨unreferring, ?_⟩
    rw [settled, resolve_of_unreferring proper unreferring, String.toList_ofList, ← (Division.single proper).eq_ofChars]

theorem settled_ne_nil (proper : segment.Proper) (property : String) : segment.settled property ≠ [] := by
  rcases settled_cases proper property with ⟨_, _, _, _, same⟩ | ⟨-, same⟩ <;> simp [same, ofReference]

theorem unreferring_settled (proper : segment.Proper) (property : String) :
    ∀ part ∈ segment.settled property, part.Unreferring := by
  rcases settled_cases proper property with ⟨_, name, _, _, same⟩ | ⟨unreferring, same⟩
  · rw [same]
    exact unreferring_ofReference name
  · rw [same]
    exact List.forall_mem_singleton.mpr unreferring

/-- What can stand before a segment can stand before its text. -/
theorem precedes_settled (proper : right.Proper) {property : String} {first : Segment}
    (head : first ∈ (right.settled property).head?) (before : Precedes left right) : Precedes left first := by
  rcases settled_cases proper property with ⟨run, name, rfl, _, same⟩ | ⟨-, same⟩
  · rw [same] at head
    cases head
    cases left <;> exact before
  · rw [same] at head
    cases head
    exact before

/-- What can stand behind a segment can stand behind its text. -/
theorem settled_precedes (proper : left.Proper) {property : String} {last : Segment}
    (tail : last ∈ (left.settled property).getLast?) (before : Precedes left right) : Precedes last right := by
  rcases settled_cases proper property with ⟨run, name, rfl, _, same⟩ | ⟨-, same⟩
  · rw [same] at tail
    cases tail
    trivial
  · rw [same] at tail
    cases tail
    exact before

/-- The segments of the result are those of the segments' texts, one behind the other. -/
theorem Division.settled (division : Division segments value) (property : String) :
    Division (segments.flatMap (Segment.settled property))
      (segments.flatMap fun segment => (segment.resolve [] property).toList) := by
  induction segments generalizing value with
  | nil => exact ⟨rfl, nofun, .nil⟩
  | cons segment rest ih =>
    have own := division.proper segment (List.mem_cons_self ..)
    have before := (List.isChain_cons.mp division.inOrder).1
    rw [List.flatMap_cons, List.flatMap_cons]
    refine (Division.ofChars_division _).append (ih division.tail) fun left last right head => ?_
    -- the texts of two segments meet as the segments did
    cases rest with
    | nil => cases head
    | cons next rest =>
      have other := division.proper next (List.mem_cons_of_mem _ (List.mem_cons_self ..))
      rw [List.flatMap_cons, List.head?_append_of_ne_nil _ (settled_ne_nil other property)] at head
      exact settled_precedes own last (precedes_settled other head (before next rfl))

end Segment

/-- The text a value becomes is divided at the places where the value was. -/
theorem ofChars_resolveTokens {value property : String} {segments : List Segment}
    (division : Segment.Division segments value.toList) :
    Segment.ofChars (resolveTokens value property []).toList = segments.flatMap (Segment.settled property) := by
  have whole := division.settled property
  rw [resolveTokens, ← division.eq_ofChars, String.toList_join, List.flatMap_map]
  exact whole.eq_ofChars.symm

/-- Without references there is nothing to do. -/
theorem resolveTokens_eq_self {value property : String} {segments : List Segment}
    (division : Segment.Division segments value.toList) (unreferring : ∀ segment ∈ segments, segment.Unreferring) :
    resolveTokens value property [] = value := by
  have kept : ∀ segment ∈ segments, segment.resolve [] property = String.ofList segment.chars := fun segment inside =>
    Segment.resolve_of_unreferring (division.proper segment inside) (unreferring segment inside) property
  rw [resolveTokens, ← division.eq_ofChars, Segment.join_map_resolve kept, division.text, String.ofList_toList]

/-- The result has no references. -/
theorem unreferring_resolveTokens (value property : String) :
    ∀ segment ∈ Segment.ofChars (resolveTokens value property []).toList, segment.Unreferring := by
  have division := Segment.Division.ofChars_division value.toList
  intro part inside
  rw [ofChars_resolveTokens division, List.mem_flatMap] at inside
  obtain ⟨segment, among, inside⟩ := inside
  exact Segment.unreferring_settled (division.proper segment among) property part inside

/-- Substitution by the built-in rule alone settles a value at once. A second substitution, for whatever property,
changes nothing, and the first changes nothing exactly if no run outside of quotes is a name behind one sigil or
two. -/
theorem builtin_substitution_settles (value property : String) :
    (∀ other, resolveTokens (resolveTokens value property []) other [] = resolveTokens value property []) ∧
    ∀ segments, Segment.Division segments value.toList →
      (resolveTokens value property [] = value ↔
        ∀ run name, .word run ∈ segments → ¬ ResolverChain.Refers run name) := by
  have settles := unreferring_resolveTokens value property
  refine ⟨fun other => ?_, fun segments division => ⟨fun same run name inside => ?_, fun unreferring => ?_⟩⟩
  · exact resolveTokens_eq_self (Segment.Division.ofChars_division _) settles
  · -- a value has one division only, so if it stays, its segments are those of the result
    rw [same, ← division.eq_ofChars] at settles
    exact settles _ inside run name rfl
  · exact resolveTokens_eq_self division fun segment inside run name same => unreferring run name (same ▸ inside)

/-- A name that ends in a backslash and stands before a quote, and a quote that is not closed. -/
theorem builtin_substitution_settles_backslash :
    let value := "$a\\'$x'$$b \"$c"
    let segments : List Segment := [.word "$a\\".toList, .quoted "'$x'".toList, .word "$$b".toList, .single ' ',
      .quoted "\"$c".toList]
    Segment.Division segments value.toList ∧ ResolverChain.Refers "$$b".toList "b".toList ∧
      resolveTokens value "content" [] = "var(--a\\)'$x'var(--b) \"$c" ∧
      resolveTokens (resolveTokens value "content" []) "margin" [] = "var(--a\\)'$x'var(--b) \"$c" ∧
      resolveTokens value "content" [] ≠ value := by
  intro value segments
  have same : Segment.ofChars value.toList = segments := by cbv
  have division : Segment.Division segments value.toList := same ▸ Segment.Division.ofChars_division value.toList
  have refers : ResolverChain.Refers "$$b".toList "b".toList := ⟨by simp, by simp, .inr rfl⟩
  have first : resolveTokens value "content" [] = "var(--a\\)'$x'var(--b) \"$c" := by cbv
  obtain ⟨again, unchanged⟩ := builtin_substitution_settles value "content"
  refine ⟨division, refers, first, (again "margin").trans first, fun stays => ?_⟩
  exact (unchanged segments division).mp stays _ _ (by simp [segments]) refers

end NestedCss
