import Mathlib
import NestedCss.Proofs.DeclaredNames
import NestedCss.Proofs.JoinedValues

namespace NestedCss

/-- References and declarations name the same property. -/
theorem PropertyName.reference_eq (name : String) : reference name = "var(" ++ ofKey ("$" ++ name) ++ ")" := by
  rw [ofKey_sigil, reference, ← String.append_assoc]
  rfl

theorem isPropertyKey_sigil {name : String} (named : name ≠ "") (own : ∀ c ∈ name.toList, isPropertyChar c) :
    isPropertyKey ("$" ++ name) := by
  simpa [isPropertyKey, toList_sigil, named] using own

namespace ResolverChain

variable {chain : ResolverChain} {token name property : String}

/-- No rule of the chain has a text for the token. -/
def Declines (chain : ResolverChain) (token property : String) : Prop :=
  ∀ rule ∈ chain, rule token property = none

theorem Declines.ask_eq (declines : chain.Declines token property) : chain.ask token property = none :=
  List.findSome?_eq_none_iff.mpr declines

/-- The token is a name behind one sigil or two. The name is not empty and begins with no sigil of its own. -/
structure Refers (token name : List Char) : Prop where
  named : name ≠ []
  bare : name.head? ≠ some '$'
  sigils : token = '$' :: name ∨ token = '$' :: '$' :: name

theorem isBare_iff {name : List Char} : isBare name = true ↔ name ≠ [] ∧ name.head? ≠ some '$' := by
  cases name <;> simp [isBare]

/-- A reference that no rule answers, be it asked with the sigil or without, becomes one to the custom property of
the name. -/
theorem resolve_reference (refers : Refers token.toList name.toList) (bare : chain.Declines name property)
    (sigil : chain.Declines ("$" ++ name) property) :
    chain.resolve token property = PropertyName.reference name := by
  have bareName := isBare_iff.mpr ⟨refers.named, refers.bare⟩
  rcases refers.sigils with one | two
  · obtain ⟨c, rest, chars⟩ := List.exists_cons_of_ne_nil refers.named
    have other : c ≠ '$' := by simpa [chars] using refers.bare
    have same : token = "$" ++ name := String.toList_inj.mp (one.trans (toList_sigil name).symm)
    have plain : resolvePlain chain token property = PropertyName.reference name := by
      rw [resolvePlain, same, sigil.ask_eq, Option.getD_none, byDefault, ← same, one]
      simp [bareName]
    rw [resolve, one, chars]
    split
    · rename_i escape
      cases escape
    · rename_i twice
      cases twice
      exact absurd rfl other
    · exact plain
  · rw [resolve, two]
    simp [bareName, bare.ask_eq]

/-- A token behind a backslash is text, whatever rules there are. -/
theorem resolve_escaped (escape : token.toList.head? = some '\\') : chain.resolve token property = token := by
  obtain ⟨rest, chars⟩ := List.head?_eq_some_iff.mp escape
  rw [resolve, chars]
  rfl

/-- What no rule has a text for and what refers to no name stands for itself. -/
theorem resolve_unreferred (declines : chain.Declines token property) (noName : ∀ name, ¬ Refers token.toList name) :
    chain.resolve token property = token := by
  have noBare : ∀ name, token.toList = '$' :: name ∨ token.toList = '$' :: '$' :: name → isBare name = false := by
    intro name sigils
    rw [Bool.eq_false_iff, ne_eq, isBare_iff]
    exact fun ⟨named, bare⟩ => noName name ⟨named, bare, sigils⟩
  have plain : resolvePlain chain token property = token := by
    rw [resolvePlain, declines.ask_eq, Option.getD_none, byDefault]
    split
    · rename_i one
      rw [noBare _ (.inl one), if_neg Bool.false_ne_true]
    · rfl
  rw [resolve]
  split
  · rfl
  · rename_i two
    rw [noBare _ (.inr two), if_neg Bool.false_ne_true, plain]
  · exact plain

/-- A quoted span begins with its quote, so it refers to no name. -/
theorem not_refers_of_quoted {span name : List Char} (proper : (Segment.quoted span).Proper) : ¬ Refers span name := by
  obtain ⟨c, rest, rfl, noWord⟩ := proper.head nofun
  rintro ⟨-, -, same | same⟩
  all_goals
    cases same
    cases noWord

end ResolverChain

/-- References match declarations. Where the rules of the chain decline a name, with a sigil and without, a run that
is the name behind one sigil or two becomes a reference to the property that the key of the name declares. Where they
decline quoted spans, these stay with all that is in them, and a run that starts with a backslash always stays. The
texts before and behind are substituted as if they stood alone. -/
theorem references_match_declarations {name property : String} {chain : ResolverChain} (named : name ≠ "")
    (own : ∀ c ∈ name.toList, isPropertyChar c) (bare : chain.Declines name property)
    (sigil : chain.Declines ("$" ++ name) property)
    (quotes : ∀ span : String, Segment.Closed span.toList ∨ Segment.Unclosed span.toList → chain.Declines span property)
    (before after : String) :
    isPropertyKey ("$" ++ name) ∧
    (∀ sigils ∈ ["$", "$$"], Segment.RunBetween before.toList (sigils ++ name).toList after.toList →
      resolveTokens (before ++ (sigils ++ name) ++ after) property chain =
        resolveTokens before property chain ++ ("var(" ++ PropertyName.ofKey ("$" ++ name) ++ ")") ++
          resolveTokens after property chain) ∧
    (∀ span : String, Segment.SpanBetween before.toList span.toList after.toList →
      resolveTokens (before ++ span ++ after) property chain =
        resolveTokens before property chain ++ span ++ resolveTokens after property chain) ∧
    ∀ run : String, run.toList.head? = some '\\' → Segment.RunBetween before.toList run.toList after.toList →
      resolveTokens (before ++ run ++ after) property chain =
        resolveTokens before property chain ++ run ++ resolveTokens after property chain := by
  have bareName : name.toList.head? ≠ some '$' := fun first =>
    absurd (own '$' (List.mem_of_head? first)) (by decide)
  refine ⟨isPropertyKey_sigil named own, fun sigils among place => ?_, fun span place => ?_, fun run escape place => ?_⟩
  · have refers : ResolverChain.Refers (sigils ++ name).toList name.toList := by
      refine ⟨by simpa using named, bareName, ?_⟩
      rw [String.toList_append]
      rcases List.mem_pair.mp among with rfl | rfl
      · exact .inl rfl
      · exact .inr rfl
    rw [place.between.resolveTokens_eq rfl, Segment.resolve, String.ofList_toList,
      ResolverChain.resolve_reference refers bare sigil, PropertyName.reference_eq]
  · have proper := place.ends.imp_right And.left
    rw [place.between.resolveTokens_eq rfl, Segment.resolve, String.ofList_toList,
      ResolverChain.resolve_unreferred (quotes span proper) fun _ => ResolverChain.not_refers_of_quoted proper]
  · rw [place.between.resolveTokens_eq rfl, Segment.resolve, String.ofList_toList, ResolverChain.resolve_escaped escape]

/-- A rule for lengths works around the three, and does not come near them. -/
theorem references_match_declarations_lengths :
    let chain : ResolverChain := [fun token _ => if token = "16dp" then some "1rem" else none]
    Segment.RunBetween "16dp ".toList "$$brandColor".toList "/16dp".toList ∧
      Segment.SpanBetween "16dp ".toList "'$brandColor'".toList "/16dp".toList ∧
      Segment.RunBetween "16dp ".toList "\\$brandColor".toList "/16dp".toList ∧
      resolveTokens "16dp $$brandColor/16dp" "border" chain = "1rem var(--brand-color)/1rem" ∧
      resolveTokens "16dp '$brandColor'/16dp" "border" chain = "1rem '$brandColor'/1rem" ∧
      resolveTokens "16dp \\$brandColor/16dp" "border" chain = "1rem \\$brandColor/1rem" := by
  intro chain
  have outside : Segment.Outside "16dp ".toList := by
    have segments : Segment.ofChars "16dp ".toList = [.word "16dp".toList, .single ' '] := by cbv
    exact ⟨_, segments ▸ Segment.Division.ofChars_division _, by simp⟩
  have begins : ∀ c ∈ "16dp ".toList.getLast?, Segment.isWordChar c = false := by simp; decide
  have ends : ∀ c ∈ "/16dp".toList.head?, Segment.isWordChar c = false := by simp; decide
  have run : Segment.RunBetween "16dp ".toList "$$brandColor".toList "/16dp".toList :=
    ⟨outside, ⟨by simp, by simp; decide⟩, begins, ends⟩
  have escaped : Segment.RunBetween "16dp ".toList "\\$brandColor".toList "/16dp".toList :=
    ⟨outside, ⟨by simp, by simp; decide⟩, begins, ends⟩
  have span : Segment.SpanBetween "16dp ".toList "'$brandColor'".toList "/16dp".toList :=
    ⟨outside, .inl ⟨'\'', "$brandColor".toList, rfl, .of_forall (by simp), rfl⟩⟩
  have declines : ∀ token : String, token ≠ "16dp" → chain.Declines token "border" := by
    intro token other
    exact List.forall_mem_singleton.mpr (if_neg other)
  have quotes : ∀ span : String, Segment.Closed span.toList ∨ Segment.Unclosed span.toList →
      chain.Declines span "border" := by
    refine fun span proper => declines span ?_
    rintro rfl
    have quoted : (Segment.quoted "16dp".toList).Proper := proper
    obtain ⟨c, rest, chars, noWord⟩ := quoted.head (by simp)
    cases chars
    cases noWord
  have named : "brandColor" ≠ "" := by decide
  obtain ⟨-, refers, kept, stays⟩ := references_match_declarations named (by simp; decide)
    (declines _ (by decide)) (declines _ (by decide)) quotes "16dp " "/16dp"
  have first : resolveTokens "16dp " "border" chain = "1rem " := by cbv
  have last : resolveTokens "/16dp" "border" chain = "/1rem" := by cbv
  refine ⟨run, span, escaped, ?_, ?_, ?_⟩
  · have whole := refers "$$" (by decide) run
    rw [first, last] at whole
    exact whole
  · have whole := kept _ span
    rw [first, last] at whole
    exact whole
  · have whole := stays _ rfl escaped
    rw [first, last] at whole
    exact whole

end NestedCss
