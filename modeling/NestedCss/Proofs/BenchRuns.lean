import NestedCss.Proofs.EmitterMoments
import NestedCss.Proofs.SessionRuns

namespace NestedCss

variable {B : Type}

/-- What is given to an instance: a node, and the class name for it if there is one. -/
structure RuleSet (B : Type) where
  node : Node B
  className : Option String

/-- What a rule set offers to the filter of an instance that compiles in the given way. One that does not compile
offers nothing. -/
def RuleSet.offer? (compile : Node B → String → Report String) (rules : RuleSet B) : Option Offer :=
  match (compile rules.node (rules.className.getD Instance.placeholder)).outcome with
  | .error _ => none
  | .ok text => some (.ofStyle rules.className text)

namespace Moment

/-- The moment at which text has come in and what the scheduler asks for is begun. -/
def submit (m : Moment) (text : String) : Moment :=
  begin ((m.emitter.note (.submitted text)).apply (.submit text)) m.calls

theorem leads_submitAll (m : Moment) (texts : List String) : m.Leads (texts.foldl submit m) := by
  induction texts generalizing m with
  | nil => exact .refl
  | cons text rest ih => exact .head (.submit m.emitter m.calls text) (ih (m.submit text))

theorem journal_begin (asked : Emitter × Option Action) (calls : List Call) :
    asked.1.journal <+: (begin asked calls).emitter.journal := by
  obtain ⟨e, _ | _ | payload⟩ := asked
  · exact List.prefix_refl _
  · exact List.prefix_refl _
  · exact List.prefix_append _ _

theorem journal_begin_note (e : Emitter) (occurrence : Occurrence) (event : Event) (calls : List Call) :
    e.journal ++ [occurrence] <+: (begin ((e.note occurrence).apply event) calls).emitter.journal :=
  journal_begin ((e.note occurrence).apply event) calls

/-- A step only adds to the journal. -/
theorem Next.journal {m m' : Moment} (next : m.Next m') : m.emitter.journal <+: m'.emitter.journal := by
  have noted : ∀ (e : Emitter) (occurrence : Occurrence) (event : Event) (calls : List Call),
      e.journal <+: (begin ((e.note occurrence).apply event) calls).emitter.journal :=
    fun e occurrence event calls => (List.prefix_append _ _).trans (journal_begin_note e occurrence event calls)
  cases next with
  | submit e calls text => exact noted e _ _ calls
  | task e calls => exact journal_begin (e.apply .tick) calls
  | queue e calls => exact List.prefix_append _ _
  | accept | replan => exact List.prefix_refl _
  | refuse e calls =>
    unfold Emitter.refuse
    split
    · exact List.prefix_append _ _
    · exact List.prefix_refl _
  | finish e calls payload remainder => exact noted e _ _ calls
  | fail e calls payload reason => exact noted e _ _ calls

/-- Between two moments some texts were submitted in this order, perhaps among others. -/
def Submitted (m : Moment) (texts : List String) (m' : Moment) : Prop :=
  ∃ added : History, m'.emitter.journal = m.emitter.journal ++ added ∧
    texts.Sublist (added.filterMap Occurrence.submission?)

variable {m m' m'' : Moment} {texts more : List String}

theorem Submitted.trans (first : m.Submitted texts m') (second : m'.Submitted more m'') :
    m.Submitted (texts ++ more) m'' := by
  obtain ⟨added, journal, came⟩ := first
  obtain ⟨added', journal', came'⟩ := second
  refine ⟨added ++ added', by rw [journal', journal, List.append_assoc], ?_⟩
  rw [List.filterMap_append]
  exact came.append came'

theorem Next.submitted (next : m.Next m') : m.Submitted [] m' := by
  obtain ⟨added, journal⟩ := next.journal
  exact ⟨added, journal.symm, List.nil_sublist _⟩

theorem submitted_submit (m : Moment) (text : String) : m.Submitted [text] (m.submit text) := by
  obtain ⟨added, journal⟩ := journal_begin_note m.emitter (.submitted text) (.submit text) m.calls
  rw [List.append_assoc] at journal
  exact ⟨.submitted text :: added, journal.symm, by simp [Occurrence.submission?]⟩

theorem submitted_submitAll (m : Moment) (texts : List String) : m.Submitted texts (texts.foldl submit m) := by
  induction texts generalizing m with
  | nil => exact ⟨[], by simp, List.nil_sublist _⟩
  | cons text rest ih => exact (m.submitted_submit text).trans (ih (m.submit text))

end Moment

/-- An instance at work, with its emitter at a moment. -/
structure Bench (B : Type) where
  content : Instance B
  moment : Moment

section Compiling
variable [Expansion B]

/-- The filter remembers what a rule set offers to it, and passes it if its fingerprint is new. -/
theorem Instance.submission_eq {i : Instance B} {earlier : List String} (knows : i.filter.Knows earlier)
    (rules : RuleSet B) :
    i.submission rules.node rules.className = Offer.passed earlier (rules.offer? i.compile).toList ∧
      (i.styled rules.node rules.className).filter.Knows
        (earlier ++ Offer.prints (rules.offer? i.compile).toList) := by
  rw [Offer.passed_toList]
  simp only [Instance.submission, Instance.styled, Instance.outcome_style, RuleSet.offer?]
  cases (i.compile rules.node (rules.className.getD Instance.placeholder)).outcome with
  | error e => exact ⟨rfl, by simpa [Except.map, Offer.prints] using knows⟩
  | ok text =>
    by_cases old : fingerprint text ∈ earlier
    · have kept := knows.again old
      simpa [Except.map, Offer.prints, Offer.passing, Offer.ofStyle, knows.accept_old old, old] using kept
    · obtain ⟨after, answer, known⟩ := knows.accept_new old rules.node
      simpa [Except.map, Offer.prints, Offer.passing, Offer.ofStyle, answer, old] using known

namespace Bench

/-- Gives a rule set to the instance. The text that its filter passes comes in at the emitter; what becomes of it
there, and what the host reports in the end, is left to the moments that follow. -/
def give (b : Bench B) (rules : RuleSet B) : Bench B :=
  ⟨b.content.styled rules.node rules.className,
    (b.content.submission rules.node rules.className).foldl .submit b.moment⟩

/-- What can become of an instance: the rule sets that were given to it, and the texts that it submitted for them.
A rule set may come at any moment, even while the host or the sink is at work. In between anything may happen at
the emitter: the host runs tasks when it likes and as often as it likes, others submit text, and a call comes
back with success or failure, whatever went on inside it. -/
inductive Run (start : Bench B) : List (RuleSet B) → List String → Bench B → Prop
  | start : Run start [] [] start
  | give {given : List (RuleSet B)} {texts : List String} {b : Bench B} (run : Run start given texts b)
      (rules : RuleSet B) :
      Run start (given ++ [rules]) (texts ++ b.content.submission rules.node rules.className) (b.give rules)
  | happen {given : List (RuleSet B)} {texts : List String} {b : Bench B} {m : Moment} (run : Run start given texts b)
      (next : b.moment.Next m) : Run start given texts { b with moment := m }

variable {start b later : Bench B} {given more : List (RuleSet B)} {texts added : List String}

/-- At the end of a run the emitter may go on by itself. -/
theorem Run.leads (run : start.Run given texts b) {m : Moment} (leads : b.moment.Leads m) :
    start.Run given texts { b with moment := m } := by
  induction leads with
  | refl => exact run
  | tail _ next ih => exact ih.happen next

theorem Run.trans (run : start.Run given texts b) (goesOn : b.Run more added later) :
    start.Run (given ++ more) (texts ++ added) later := by
  induction goesOn with
  | start => simpa only [List.append_nil] using run
  | give _ rules ih =>
    rw [← List.append_assoc, ← List.append_assoc]
    exact ih.give rules
  | happen _ next ih => exact ih.happen next

/-- Forgetting the instance, what is left is a run of its emitter. -/
theorem Run.forget (run : start.Run given texts b) : start.moment.Leads b.moment := by
  induction run with
  | start => exact .refl
  | @give given texts b run rules ih => exact ih.trans (b.moment.leads_submitAll _)
  | happen run next ih => exact ih.tail next

/-- The texts of a run have come in at the emitter in this order. -/
theorem Run.submitted (run : start.Run given texts b) : start.moment.Submitted texts b.moment := by
  induction run with
  | start => exact ⟨[], by simp, List.nil_sublist _⟩
  | @give given texts b run rules ih => exact ih.trans (b.moment.submitted_submitAll _)
  | happen run next ih =>
    have both := ih.trans next.submitted
    rwa [List.append_nil] at both

/-- Where the filter starts with some fingerprints, the texts of a run are those that pass it. -/
theorem Run.gated {earlier : List String} (run : start.Run given texts b)
    (knows : start.content.filter.Knows earlier) :
    let offers := given.filterMap (RuleSet.offer? start.content.compile)
    b.content.compile = start.content.compile ∧ b.content.filter.Knows (earlier ++ Offer.prints offers) ∧
      texts = Offer.passed earlier offers := by
  induction run with
  | start => exact ⟨rfl, by simpa [Offer.prints] using knows, rfl⟩
  | @give given texts b run rules ih =>
    obtain ⟨compile, known, rfl⟩ := ih
    obtain ⟨submitted, kept⟩ := Instance.submission_eq known rules
    have offered : [rules].filterMap (RuleSet.offer? start.content.compile) =
        (rules.offer? start.content.compile).toList := by
      cases made : rules.offer? start.content.compile <;> simp [made]
    rw [compile] at submitted kept
    simp only [List.filterMap_append, offered, Offer.prints, Offer.passed_append] at submitted kept ⊢
    refine ⟨(b.content.compile_after (.style rules.node rules.className)).trans compile, ?_, by rw [submitted]⟩
    rw [← List.append_assoc]
    exact kept
  | happen run next ih => exact ih

/-- A rule set that does not compile leaves everything as it was. -/
theorem give_of_error {rules : RuleSet B} {e : CompileError}
    (failed : (b.content.compile rules.node (rules.className.getD Instance.placeholder)).outcome = .error e) :
    (b.content.style rules.node rules.className).outcome = .error e ∧ b.give rules = b := by
  have outcome : (b.content.style rules.node rules.className).outcome = .error e := by
    rw [Instance.outcome_style, failed]
    rfl
  refine ⟨outcome, ?_⟩
  simp only [give, Instance.styled, Instance.submission, outcome, List.foldl_nil]

/-- A rule set whose fingerprint has come up is named, and leaves everything as it was. -/
theorem give_of_old {rules : RuleSet B} {earlier : List String} {text : String}
    (knows : b.content.filter.Knows earlier)
    (compiled : (b.content.compile rules.node (rules.className.getD Instance.placeholder)).outcome = .ok text)
    (old : fingerprint text ∈ earlier) :
    (b.content.style rules.node rules.className).outcome =
        .ok ⟨rules.className.getD (fingerprint text), none, b.content.filter⟩ ∧ b.give rules = b := by
  have outcome : (b.content.style rules.node rules.className).outcome =
      .ok ⟨rules.className.getD (fingerprint text), none, b.content.filter⟩ := by
    rw [Instance.outcome_style, compiled]
    simp [Except.map, knows.accept_old old]
  refine ⟨outcome, ?_⟩
  simp only [give, Instance.styled, Instance.submission, outcome, Option.toList_none, List.foldl_nil]

/-- What the filter makes of a run of an instance that starts with an empty one. -/
structure Gated (start : Bench B) (given : List (RuleSet B)) (texts : List String) (later : Bench B) : Prop where
  /-- The texts are those that pass a filter for fingerprints. -/
  passed : texts = Offer.passed [] (given.filterMap (RuleSet.offer? start.content.compile))
  /-- They have come in at the emitter in this order, and other than that the emitter has gone its own ways. -/
  submitted : start.moment.Submitted texts later.moment
  leads : start.moment.Leads later.moment
  /-- A rule set that does not compile leaves everything as it was. -/
  error : ∀ rules : RuleSet B, ∀ e,
    (start.content.compile rules.node (rules.className.getD Instance.placeholder)).outcome = .error e →
      (later.content.style rules.node rules.className).outcome = .error e ∧ later.give rules = later
  /-- A rule set that comes again is named and leaves everything as it was, whatever has become of its text. -/
  again : ∀ rules ∈ given, ∀ text,
    (start.content.compile rules.node (rules.className.getD Instance.placeholder)).outcome = .ok text →
      (later.content.style rules.node rules.className).outcome =
        .ok ⟨rules.className.getD (fingerprint text), none, later.content.filter⟩ ∧ later.give rules = later

/-- A run from an empty filter is one that the filter has gated, for whatever moments the emitter went through in
between. -/
theorem Run.gate (run : start.Run given texts b) (initial : start.content.filter = .initial) :
    start.Gated given texts b := by
  obtain ⟨compile, knows, passed⟩ := run.gated (initial ▸ Filter.knows_initial)
  refine ⟨passed, run.submitted, run.forget, fun rules e failed => ?_, fun rules came text compiled => ?_⟩
  · rw [← compile] at failed
    exact give_of_error failed
  · have offered : rules.offer? start.content.compile = some (.ofStyle rules.className text) := by
      rw [RuleSet.offer?, compiled]
    have old : fingerprint text ∈ Offer.prints (given.filterMap (RuleSet.offer? start.content.compile)) :=
      List.mem_filterMap.mpr ⟨_, List.mem_filterMap.mpr ⟨rules, came, offered⟩, rfl⟩
    rw [← compile] at compiled
    exact give_of_old knows compiled old

end Bench

end Compiling

end NestedCss
