import Mathlib
import NestedCss.Proofs.SessionMoments
import NestedCss.Style.Template

namespace NestedCss

variable {B : Type} [Expansion B]

/-- What a command offers to the filter of an instance that compiles in the given way. -/
def Command.offer? (compile : Node B → String → Report String) : Command B → Option Offer
  | .style node className => RuleSet.offer? compile ⟨node, className⟩
  | .submit text => some ⟨none, text⟩
  | _ => none

/-- The filter remembers what was offered, and what it passes is submitted. -/
theorem Instance.brings_eq {i : Instance B} {earlier : List String} (knows : i.filter.Knows earlier)
    (command : Command B) :
    i.brings command = Offer.passed earlier (command.offer? i.compile).toList ∧
      (i.after command).filter.Knows (earlier ++ Offer.prints (command.offer? i.compile).toList) := by
  cases command with
  | style node className => exact i.submission_eq knows ⟨node, className⟩
  | submit text =>
    simpa [Instance.brings, Command.offer?, Offer.passed, Offer.passing, Offer.prints, Instance.after] using knows
  | compile | run | drain | drop | describe =>
    simpa [Instance.brings, Command.offer?, Offer.passed, Offer.prints, Instance.after] using knows

namespace Session

/-- What commands, each with the number of its instance, offer to the filter of one instance. -/
def offers (index : Nat) (compile : Node B → String → Report String) (commands : List (Nat × Command B)) :
    List Offer :=
  commands.flatMap fun command => (if command.1 = index then command.2.offer? compile else none).toList

/-- An instance that compiles in the given way and whose filter holds back the given fingerprints. -/
structure Gate (s : Session B) (index : Nat) (compile : Node B → String → Report String) (earlier : List String) :
    Prop where
  seated : s.Seated
  guarded : ∃ i, s.find? index = some i ∧ i.compile = compile ∧ i.filter.Knows earlier

variable {s : Session B} {index : Nat} {compile : Node B → String → Report String} {earlier : List String}

/-- A command that does not drop the instance brings it just what it offers and the filter does not know. -/
theorem Gate.perform (gate : s.Gate index compile earlier) {target : Nat} {command : Command B}
    (kept : (target, command) ≠ (index, .drop)) :
    (s.perform target command).1.Gate index compile
        (earlier ++ Offer.prints (offers index compile [(target, command)])) ∧
      ((s.perform target command).1.dispatch.history index).outside =
        (s.dispatch.history index).outside ++ Offer.passed earlier (offers index compile [(target, command)]) := by
  obtain ⟨i, held, rfl, knows⟩ := gate.guarded
  have brought := gate.seated.perform target command
  have found := find?_perform s kept
  rw [held, Option.map_some] at found
  have outside := brought.outside index
  by_cases same : target = index
  · subst same
    obtain ⟨submitted, known⟩ := Instance.brings_eq knows command
    simp only [offers, List.flatMap_cons, List.flatMap_nil, List.append_nil, if_pos]
    rw [if_pos rfl, held, Option.elim_some] at outside
    rw [if_pos rfl] at found
    exact ⟨⟨brought.seated, _, found, i.compile_after command, known⟩, submitted ▸ outside⟩
  · rw [if_neg (Ne.symm same)] at outside found
    simp only [offers, List.flatMap_cons, List.flatMap_nil, if_neg same]
    exact ⟨⟨brought.seated, i, found, rfl, by simpa [Offer.prints] using knows⟩, outside⟩

/-- So do commands one after the other, each judged by the fingerprints of those before it. -/
theorem Gate.performAll (gate : s.Gate index compile earlier) {commands : List (Nat × Command B)}
    (kept : (index, .drop) ∉ commands) :
    (s.performAll commands).Gate index compile (earlier ++ Offer.prints (offers index compile commands)) ∧
      ((s.performAll commands).dispatch.history index).outside =
        (s.dispatch.history index).outside ++ Offer.passed earlier (offers index compile commands) := by
  -- each command adds to the fingerprints that came earlier, so the start is kept general
  induction commands generalizing s earlier with
  | nil =>
    simp only [performAll, List.foldl_nil, offers, List.flatMap_nil, Offer.prints, List.filterMap_nil, Offer.passed,
      List.append_nil, and_true]
    exact gate
  | cons command rest ih =>
    rw [List.mem_cons, not_or] at kept
    obtain ⟨here, later⟩ := kept
    obtain ⟨passed, outside⟩ := gate.perform (Ne.symm here)
    obtain ⟨last, rest_outside⟩ := ih passed later
    have split : offers index compile (command :: rest) =
        offers index compile [command] ++ offers index compile rest := by
      simp [offers]
    rw [split, Offer.passed_append, ← List.append_assoc, Offer.prints, List.filterMap_append, ← List.append_assoc]
    exact ⟨last, rest_outside.trans (by rw [outside])⟩

/-- A rule set whose fingerprint has come up is only compiled. -/
theorem Gate.perform_old (gate : s.Gate index compile earlier) {node : Node B} {className : Option String}
    {notices : List Notice} {text : String}
    (compiled : compile node (className.getD Instance.placeholder) = ⟨notices, .ok text⟩)
    (old : fingerprint text ∈ earlier) :
    s.perform index (.style node className) = (s.notify notices, .ok (.text (className.getD (fingerprint text)))) := by
  obtain ⟨i, held, rfl, knows⟩ := gate.guarded
  have held' : (s.notify notices).find? index = some i := held
  have styled := style_of_held_back (s := s) compiled (knows.accept_old old node) index
  rw [put_self held'] at styled
  simp only [Session.perform, withInstance, held, styled]
  rfl

/-- A rule set that does not compile is answered with the error, and nothing is submitted. -/
theorem Gate.perform_error (gate : s.Gate index compile earlier) {node : Node B} {className : Option String}
    {notices : List Notice} {e : CompileError}
    (compiled : compile node (className.getD Instance.placeholder) = ⟨notices, .error e⟩) :
    s.perform index (.style node className) = (s.notify notices, .error (.compile e)) := by
  obtain ⟨i, held, rfl, -⟩ := gate.guarded
  simp only [Session.perform, withInstance, held, style_of_error compiled index]
  rfl

/-- A rule set whose fingerprint is new is answered as its submission ends. -/
theorem Gate.reply_new (gate : s.Gate index compile earlier) {node : Node B} {className : Option String}
    {notices : List Notice} {text : String}
    (compiled : compile node (className.getD Instance.placeholder) = ⟨notices, .ok text⟩)
    (new : fingerprint text ∉ earlier) :
    (s.perform index (.style node className)).2 = .ok (.text (className.getD (fingerprint text))) ∨
      ∃ reason, (s.perform index (.style node className)).2 = .error (.delivery reason) := by
  obtain ⟨i, held, rfl, knows⟩ := gate.guarded
  obtain ⟨after, answer, -⟩ := knows.accept_new new node
  simp only [Session.perform, withInstance, held, style_of_passed compiled answer index, Session.submit]
  cases (((s.notify notices).put index (some { i with filter := after })).dispatch.submit index
    (Offer.ofStyle className text).text).2 with
  | error reason => exact .inr ⟨reason, rfl⟩
  | ok => exact .inl rfl

/-- A rule set that is compiled is known from then on. It is given its class name, or its text has come to the emitter
and is not delivered. -/
theorem Gate.perform_style (gate : s.Gate index compile earlier) {node : Node B} {className : Option String}
    {notices : List Notice} {text : String}
    (compiled : compile node (className.getD Instance.placeholder) = ⟨notices, .ok text⟩) :
    let answer := s.perform index (.style node className)
    answer.1.Gate index compile (earlier ++ [fingerprint text]) ∧
      (answer.2 = .ok (.text (className.getD (fingerprint text))) ∨
        (∃ reason, answer.2 = .error (.delivery reason)) ∧
        (answer.1.dispatch.history index).outside =
          (s.dispatch.history index).outside ++ [(Offer.ofStyle className text).text]) := by
  intro answer
  have stays : (index, Command.style node className) ≠ (index, .drop) := by simp
  obtain ⟨next, grown⟩ := gate.perform stays
  have offered : offers index compile [(index, .style node className)] = [.ofStyle className text] := by
    simp [offers, Command.offer?, RuleSet.offer?, compiled]
  rw [offered] at next grown
  refine ⟨next, ?_⟩
  by_cases old : fingerprint text ∈ earlier
  · exact .inl (congrArg Prod.snd (gate.perform_old compiled old))
  · have passed : Offer.passed earlier [.ofStyle className text] = [(Offer.ofStyle className text).text] := by
      simp [Offer.passed, Offer.passing, Offer.ofStyle, old]
    rw [passed] at grown
    rcases gate.reply_new compiled old with named | refused
    · exact .inl named
    · exact .inr ⟨refused, grown⟩

/-- An instance that was just made is gated, and no fingerprint has come up yet. -/
theorem Reached.create_gate {s' : Session B} {setup : Setup B} (reached : s.Reached)
    (usual : setup.filter = Filter.initial) (created : s.create setup = (s', .ok ())) :
    ∃ start : Bench B, s'.bench? s.members.length = some start ∧ start.content.filter = Filter.initial ∧
      s'.Gate s.members.length start.content.compile [] := by
  have made := reached.seated.create setup
  rw [created] at made
  obtain ⟨seated, instances⟩ := made
  obtain ⟨i, held, filter⟩ := instances rfl
  obtain ⟨m, moment⟩ := seated.moment? held
  have initial : i.filter = Filter.initial := filter.trans usual
  exact ⟨⟨i, m⟩, bench?_eq_some.mpr ⟨held, moment⟩, initial, seated, i, held, rfl, initial ▸ Filter.knows_initial⟩

end Session

/-- The texts that come from an instance are those that pass a filter for fingerprints, in order. In any run, whoever
is at work when a rule set comes, whatever the host does with tasks, and whatever it reports in the end: a rule set
that does not compile leaves everything as it was, and so does one that comes again, whatever has become of its
text.

The commands of a session are such a run. The texts that they bring to an emitter from outside are those that pass;
a rule set that does not compile leaves nothing but notices; the text of a rule set that is not delivered has come
to the emitter all the same; and when a rule set comes again it gets its class name, and only notices are left. -/
theorem dedup_gate_over_runs {s s' : Session B} {setup : Setup B} (reached : s.Reached)
    (usual : setup.filter = Filter.initial) (created : s.create setup = (s', .ok ())) :
    (∀ (start later : Bench B) (given : List (RuleSet B)) (texts : List String),
      start.content.filter = Filter.initial → start.Run given texts later → start.Gated given texts later) ∧
    let index := s.members.length
    ∃ start : Bench B, s'.bench? index = some start ∧ start.content.filter = Filter.initial ∧
      let compile := start.content.compile
      ∀ commands, (index, .drop) ∉ commands →
        let run := s'.performAll commands
        (∃ texts later, run.bench? index = some later ∧
          start.Run (commands.filterMap (Session.ruleSet? index)) texts later) ∧
        (run.dispatch.history index).outside =
          (s'.dispatch.history index).outside ++ Offer.passed [] (Session.offers index compile commands) ∧
        (∀ node className notices e, compile node (className.getD Instance.placeholder) = ⟨notices, .error e⟩ →
          run.perform index (.style node className) = (run.notify notices, .error (.compile e))) ∧
        ∀ node className notices text, compile node (className.getD Instance.placeholder) = ⟨notices, .ok text⟩ →
          let name := className.getD (fingerprint text)
          let after := (run.perform index (.style node className)).1
          ((run.perform index (.style node className)).2 = .ok (.text name) ∨
            (∃ reason, (run.perform index (.style node className)).2 = .error (.delivery reason)) ∧
            (after.dispatch.history index).outside =
              (run.dispatch.history index).outside ++ [(Offer.ofStyle className text).text]) ∧
          ∀ later, (index, .drop) ∉ later →
            (after.performAll later).perform index (.style node className) =
              ((after.performAll later).notify notices, .ok (.text name)) := by
  refine ⟨fun start later given texts initial run => run.gate initial, ?_⟩
  intro index
  obtain ⟨start, bench, initial, gated⟩ := reached.create_gate usual created
  refine ⟨start, bench, initial, fun commands kept => ?_⟩
  obtain ⟨gate, outside⟩ := gated.performAll kept
  refine ⟨gated.seated.bench_performAll bench kept, outside, fun node className notices e compiled =>
    gate.perform_error compiled, fun node className notices text compiled => ?_⟩
  obtain ⟨known, answered⟩ := gate.perform_style compiled
  refine ⟨answered, fun later kept' => ?_⟩
  have again := (known.performAll kept').1
  exact again.perform_old compiled (by simp)

/-- The sink is jammed when the first rule set comes, and the task is run at once. One host passes the error on, the
other one keeps it to itself. The rule set comes again, and once more without a class name. -/
theorem dedup_gate_over_runs_jammed : ∃ (setup : Host → Setup Closure) (node : Node Closure), ∀ host reply,
    host = .immediate ∧ reply = .error (.delivery (.sink "jam")) ∨
        host = .decided [⟨.now, .lenient⟩] ∧ reply = .ok (.text ".x") →
      ∃ s start later, (setup host).filter = Filter.initial ∧ Session.initial.create (setup host) = (s, .ok ()) ∧
        let named := Command.style node (some ".x")
        let jammed := (s.perform 0 named).1
        (s.perform 0 named).2 = reply ∧
        jammed.perform 0 named = (jammed.notify [], .ok (.text ".x")) ∧
        ((s.performAll [(0, named), (0, .style node none), (0, named)]).dispatch.history 0).outside =
          [".x\x7bcolor:red;\x7d", "._sie78t\x7bcolor:red;\x7d"] ∧
        s.bench? 0 = some start ∧
        start.Run [⟨node, some ".x"⟩, ⟨node, none⟩, ⟨node, some ".x"⟩]
          [".x\x7bcolor:red;\x7d", "._sie78t\x7bcolor:red;\x7d"] later := by
  obtain ⟨setup, scripted⟩ : ∃ setup : Host → Setup Closure, setup = fun host =>
    ⟨[], ":root", .lowercase, host, .scripted [⟨[], some "jam", none⟩], .initial⟩ := ⟨_, rfl⟩
  obtain ⟨node, red⟩ : ∃ node : Node Closure, node = [("color", .text "red")] := ⟨_, rfl⟩
  refine ⟨setup, node, fun host reply known => ?_⟩
  obtain ⟨s, made⟩ : ∃ s, s = (Session.initial.create (setup host)).1 := ⟨_, rfl⟩
  have created : Session.initial.create (setup host) = (s, .ok ()) := by
    rw [made, scripted]
    rfl
  have usual : (setup host).filter = Filter.initial := by rw [scripted]
  obtain ⟨runs, start, bench, initial, gate⟩ := dedup_gate_over_runs .initial usual created
  have plain : start.content.compile = Instance.compile ⟨":root", .lowercase, Frame.empty, .initial⟩ := by
    have content := (Session.bench?_eq_some.mp bench).1
    rw [made, scripted] at content
    exact congrArg Instance.compile (Option.some.inj content).symm
  have named : start.content.compile node ".x" = ⟨[], .ok ".x\x7bcolor:red;\x7d"⟩ := by
    rw [plain, red]
    cbv
  have replied : (s.perform 0 (.style node (some ".x"))).2 = reply := by
    rcases known with ⟨rfl, rfl⟩ | ⟨rfl, rfl⟩
    all_goals
      rw [made, scripted, red]
      cbv
  have before : (s.dispatch.history 0).outside = [] := by
    rw [made, scripted]
    rfl
  have offers : [⟨node, some ".x"⟩, ⟨node, none⟩, ⟨node, some ".x"⟩].filterMap (RuleSet.offer? start.content.compile) =
      Session.offers 0 start.content.compile
        [(0, .style node (some ".x")), (0, .style node none), (0, .style node (some ".x"))] := by
    rw [plain, red]
    cbv
  have passed : Offer.passed [] (Session.offers 0 start.content.compile
      [(0, .style node (some ".x")), (0, .style node none), (0, .style node (some ".x"))]) =
        [".x\x7bcolor:red;\x7d", "._sie78t\x7bcolor:red;\x7d"] := by
    rw [plain, red]
    cbv
  obtain ⟨-, -, -, calls⟩ := gate [] (by simp)
  obtain ⟨-, again⟩ := calls node (some ".x") [] _ named
  obtain ⟨⟨texts, later, -, ran⟩, whole, -⟩ :=
    gate [(0, .style node (some ".x")), (0, .style node none), (0, .style node (some ".x"))] (by simp)
  have submitted := (runs start later _ texts initial ran).passed
  refine ⟨s, start, later, usual, created, replied, again [] (by simp), ?_, bench, ?_⟩
  · exact whole.trans (congrArg₂ (· ++ ·) before passed)
  · have texts_eq := submitted.trans ((congrArg (Offer.passed []) offers).trans passed)
    exact texts_eq ▸ ran

end NestedCss
