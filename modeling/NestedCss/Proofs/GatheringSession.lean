import NestedCss.Proofs.GatheredText
import NestedCss.Proofs.StyleOffers

namespace NestedCss

/-- A result meets a specification: there is one just where one is expected, and it stands in a relation
to that. -/
inductive Meets {α β ε : Type} (R : α → β → Prop) : Option α → Except ε β → Prop
  | none (e : ε) : Meets R none (.error e)
  | some {a : α} {b : β} : R a b → Meets R (some a) (.ok b)

namespace Meets

variable {α β γ δ ε ζ : Type} {R : α → β → Prop} {S : γ → δ → Prop}

theorem bind {expected : Option α} {result : Except ε β} {rest : α → Option γ} {goOn : β → Except ε δ}
    (first : Meets R expected result) (second : ∀ a b, R a b → Meets S (rest a) (goOn b)) :
    Meets S (expected >>= rest) (result >>= goOn) := by
  cases first with
  | none e => exact .none e
  | some related => exact second _ _ related

theorem map {S : α → δ → Prop} {expected : Option α} {result : Except ε β} {f : β → δ}
    (meets : Meets R expected result) (keeps : ∀ a b, R a b → S a (f b)) : Meets S expected (result.map f) := by
  cases meets with
  | none e => exact .none e
  | some related => exact .some (keeps _ _ related)

theorem mapError {expected : Option α} {result : Except ε β} (meets : Meets R expected result) (f : ε → ζ) :
    Meets R expected (result.mapError f) := by
  cases meets with
  | none e => exact .none (f e)
  | some related => exact .some related

end Meets

variable {B : Type}

theorem Session.submit_gathered {s : Session B} {text : String} (gathered : s.dispatch.Gathered text) (more : String) :
    ∃ t, s.submit 0 more = (t, .ok ()) ∧ t.members = s.members ∧ t.dispatch.Gathered (text ++ more) := by
  obtain ⟨done, gathered'⟩ := gathered.submit more
  exact ⟨(s.submit 0 more).1, Prod.ext rfl (by simp only [Session.submit, done]; rfl), rfl, gathered'⟩

/-- The session after a step together with its result. -/
def Session.settled {α : Type} (step : Session B × Except SessionError α) : Except SessionError (Session B × α) :=
  step.2.map fun a => (step.1, a)

variable [Expansion B]

namespace Session

variable {s : Session B} {text : String}

/-- A session with a single instance that compiles in the given way, and whose filter holds back the
given fingerprints. The given text has been gathered. -/
structure Gathering (s : Session B) (compile : Node B → String → Report String) (earlier : List String)
    (text : String) : Prop where
  member : ∃ i, s.members = [⟨some i, true⟩] ∧ i.compile = compile ∧ i.filter.Knows earlier
  gathered : s.dispatch.Gathered text

variable {compile : Node B → String → Report String} {earlier : List String}

theorem Gathering.find? (gathering : s.Gathering compile earlier text) : ∃ i, s.find? 0 = some i := by
  obtain ⟨⟨i, members, -⟩, -⟩ := gathering
  exact ⟨i, by simp [Session.find?, members]⟩

/-- A rule set that is compiled is gathered unless its fingerprint has come up. -/
theorem Gathering.style (gathering : s.Gathering compile earlier text) {i : Instance B} (held : s.find? 0 = some i)
    (node : Node B) (className : Option String) :
    Meets (fun offer made => made.1.Gathering compile (earlier ++ offer.print.toList)
        (text ++ String.join (offer.passing earlier)))
      ((compile node (className.getD Instance.placeholder)).outcome.toOption.map (Offer.ofStyle className))
      (settled (s.style 0 i node className)) := by
  obtain ⟨⟨only, members, rfl, knows⟩, gathered⟩ := gathering
  obtain rfl : only = i := by simpa [Session.find?, members] using held
  generalize reported : only.compile node (className.getD Instance.placeholder) = report
  obtain ⟨notices, e | compiled⟩ := report
  · rw [style_of_error reported]
    exact .none _
  · have noted : (s.notify notices).dispatch.Gathered text := gathered.notify notices
    have stored : ∀ filter, ((s.notify notices).put 0 (some { only with filter })).members =
        [⟨some { only with filter }, true⟩] := by simp [Session.put, notify, members]
    by_cases old : fingerprint compiled ∈ earlier
    · rw [style_of_held_back reported (knows.accept_old old node)]
      have nothing : (Offer.ofStyle className compiled).passing earlier = [] := by
        simp [Offer.passing, Offer.ofStyle, old]
      have kept : (s.notify notices).dispatch.Gathered (text ++ String.join []) := by simpa using noted
      exact .some ⟨⟨only, stored only.filter, rfl, knows.again old⟩, nothing ▸ kept⟩
    · obtain ⟨filter, answer, known⟩ := knows.accept_new old node
      have offered :
          (Offer.ofStyle className compiled).passing earlier = [(Offer.ofStyle className compiled).text] := by
        simp [Offer.passing, Offer.ofStyle, old]
      have ready : ((s.notify notices).put 0 (some { only with filter })).dispatch.Gathered text := noted
      obtain ⟨t, submitted, members', gathered'⟩ := submit_gathered ready (Offer.ofStyle className compiled).text
      rw [style_of_passed reported answer, submitted]
      refine .some ⟨⟨{ only with filter }, members'.trans (stored filter), rfl, known⟩, ?_⟩
      simpa [offered] using gathered'

/-- Running the queue makes what was gathered the only element of the style sheet. -/
theorem Gathering.run (gathering : s.Gathering compile earlier text) : ∃ t count, s.run 0 = (t, .ok count) ∧
    t.elements t.dispatch.journal = if text = "" then [] else [text] := by
  obtain ⟨⟨i, members, -⟩, gathered⟩ := gathering
  have listed : s.isRecorded 0 = true := by simp [isRecorded, members]
  obtain ⟨after, count, ran, delivered⟩ := gathered.run listed
  obtain ⟨attached, seats⟩ := gathered.seats
  refine ⟨{ s with dispatch := after }, count, ?_, delivered⟩
  simp [Session.run, Session.runQueue, seats, ran, Except.mapError]

end Session

end NestedCss
