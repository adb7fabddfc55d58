import NestedCss.Proofs.InstanceStability

namespace NestedCss

variable {B : Type}

/-- A text on its way to an emitter. The filter knows it by its fingerprint; a text without one goes past
the filter. -/
structure Offer where
  print : Option String
  text : String

namespace Offer

/-- What is offered for a rule set that has been compiled. Without a class name the text is one for the
placeholder, and the class named after it is written into it. -/
def ofStyle (className : Option String) (compiled : String) : Offer where
  print := some (fingerprint compiled)
  text :=
    match className with
    | some _ => compiled
    | none => String.ofList (nameClass (fingerprint compiled).toList compiled.toList)

/-- The text of an offer, unless its fingerprint is one of those that came earlier. -/
def passing (earlier : List String) (offer : Offer) : List String :=
  match offer.print with
  | none => [offer.text]
  | some print => if print ∈ earlier then [] else [offer.text]

/-- The texts of offers that pass, in order, where some fingerprints came earlier. -/
def passed (earlier : List String) : List Offer → List String
  | [] => []
  | offer :: rest => offer.passing earlier ++ passed (earlier ++ offer.print.toList) rest

/-- The fingerprints of offers. -/
def prints (offers : List Offer) : List String := offers.filterMap Offer.print

theorem prints_cons (offer : Offer) (rest : List Offer) :
    prints (offer :: rest) = offer.print.toList ++ prints rest := by
  cases given : offer.print <;> simp [prints, given]

/-- Later offers are judged by the fingerprints of the earlier ones as well. -/
theorem passed_append (earlier : List String) (offers more : List Offer) :
    passed earlier (offers ++ more) = passed earlier offers ++ passed (earlier ++ prints offers) more := by
  induction offers generalizing earlier with
  | nil => simp [passed, prints]
  | cons offer rest ih => rw [List.cons_append, passed, ih, passed, prints_cons, List.append_assoc, List.append_assoc]

/-- What passes from a single offer, or from none. -/
theorem passed_toList (earlier : List String) (offer? : Option Offer) :
    passed earlier offer?.toList = offer?.elim [] (passing earlier) := by
  cases offer? <;> simp [passed]

end Offer

namespace Filter

/-- A filter that holds back just the given fingerprints. -/
def Knows (filter : Filter) (earlier : List String) : Prop :=
  ∃ prints, filter = .unseen prints ∧ ∀ print, print ∈ prints ↔ print ∈ earlier

theorem knows_initial : initial.Knows [] := ⟨[], rfl, fun _ => Iff.rfl⟩

variable {filter : Filter} {earlier : List String} {print : String}

/-- A filter holds back what it knows and stays as it is. -/
theorem Knows.accept_old (knows : filter.Knows earlier) (old : print ∈ earlier) (node : Node B) :
    filter.accept print node = (false, filter) := by
  obtain ⟨prints, rfl, same⟩ := knows
  have held : print ∈ prints := (same print).mpr old
  simp [accept, held]

/-- It passes what it does not know, and knows it from then on. -/
theorem Knows.accept_new (knows : filter.Knows earlier) (new : print ∉ earlier) (node : Node B) :
    ∃ after, filter.accept print node = (true, after) ∧ after.Knows (earlier ++ [print]) := by
  obtain ⟨prints, rfl, same⟩ := knows
  have missing : print ∉ prints := fun held => new ((same print).mp held)
  refine ⟨.unseen (print :: prints), by simp [accept, missing], print :: prints, rfl, fun other => ?_⟩
  simp only [List.mem_cons, List.mem_append, List.not_mem_nil, or_false, same]
  exact or_comm

theorem Knows.again (knows : filter.Knows earlier) (old : print ∈ earlier) : filter.Knows (earlier ++ [print]) := by
  obtain ⟨prints, rfl, same⟩ := knows
  refine ⟨prints, rfl, fun other => ?_⟩
  simp only [List.mem_append, List.mem_singleton, same]
  exact ⟨.inl, fun inside => inside.elim id fun equal => equal ▸ old⟩

end Filter

section Compiling
variable [Expansion B]

/-- Compiling a rule set and offering its text to the filter. -/
theorem Instance.style_eq (i : Instance B) (node : Node B) (className : Option String) :
    i.style node className = do
      let text ← i.compile node (className.getD placeholder)
      let (passed, filter) := i.filter.accept (fingerprint text) node
      return ⟨className.getD (fingerprint text), if passed then some (Offer.ofStyle className text).text else none,
        filter⟩ := by
  cases className <;> rfl

/-- A rule set comes to the text that the filter makes of its compilation. -/
theorem Instance.outcome_style (i : Instance B) (node : Node B) (className : Option String) :
    (i.style node className).outcome = (i.compile node (className.getD placeholder)).outcome.map fun text =>
      let (passed, filter) := i.filter.accept (fingerprint text) node
      ⟨className.getD (fingerprint text), if passed then some (Offer.ofStyle className text).text else none,
        filter⟩ := by
  rw [Instance.style_eq]
  obtain ⟨notices, _ | text⟩ := i.compile node (className.getD placeholder)
  · rfl
  · rfl

namespace Session

variable {s : Session B} {i : Instance B} {node : Node B} {className : Option String} {notices : List Notice}

theorem style_of_error {e : CompileError}
    (compiled : i.compile node (className.getD Instance.placeholder) = ⟨notices, .error e⟩) (index : Nat) :
    s.style index i node className = (s.notify notices, .error (.compile e)) := by
  rw [style, Instance.style_eq, compiled]
  rfl

/-- A rule set that is held back changes the filter alone and is answered with its class. -/
theorem style_of_held_back {text : String} {filter : Filter}
    (compiled : i.compile node (className.getD Instance.placeholder) = ⟨notices, .ok text⟩)
    (answer : i.filter.accept (fingerprint text) node = (false, filter)) (index : Nat) :
    s.style index i node className =
      ((s.notify notices).put index (some { i with filter }), .ok (className.getD (fingerprint text))) := by
  rw [style, Instance.style_eq, compiled]
  simp [Report.bind_eq, Report.andThen, Report.pure_eq, answer]

/-- A rule set that passes is submitted once, and the answer waits for the outcome of the submission. -/
theorem style_of_passed {text : String} {filter : Filter}
    (compiled : i.compile node (className.getD Instance.placeholder) = ⟨notices, .ok text⟩)
    (answer : i.filter.accept (fingerprint text) node = (true, filter)) (index : Nat) :
    s.style index i node className =
      let (after, result) := ((s.notify notices).put index (some { i with filter })).submit index
        (Offer.ofStyle className text).text
      (after, result.map fun _ => className.getD (fingerprint text)) := by
  rw [style, Instance.style_eq, compiled]
  simp [Report.bind_eq, Report.andThen, Report.pure_eq, answer]

end Session

end Compiling

end NestedCss
