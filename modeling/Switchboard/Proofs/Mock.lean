import Switchboard.Proofs.Dict
import Switchboard.Proofs.Pieces
import Switchboard.Proofs.Protocols

/-!
# Who answers a call, the method or its canned output

A caller writes entries with plus signs between them, and means by each a name and a kind. First
it is shown that what is selected is the kind of the first entry that names the method
(`Mock.select_eq_some_iff`), whatever else stands between the plus signs. Then a run is taken apart
into two steps: something is selected, and the method follows the selection (`Method.follow`).
What follows a selection may be the canned output or the real call; that one of them has no part in
it is said by putting anything in its place. Last, all four ways in which a method is entered are
seen to follow what the caller selects under the name of the method.
-/

namespace Switchboard

/-! ## Entries -/

namespace Mock

/-- An entry of a list for the argument `mock`, of which no part holds what stands between the
parts. -/
inductive Entry
  /-- The name of a method or a star, and a kind of output. -/
  | pair (target kind : List Char) (htarget : '+' ∉ target ∧ ':' ∉ target)
      (hkind : '+' ∉ kind ∧ ':' ∉ kind)
  /-- What has no colon in it, or more than one. -/
  | other (text : List Char) (hplus : '+' ∉ text) (hcolons : text.count ':' ≠ 1)

namespace Entry

/-- An entry as it is written. -/
def text : Entry → List Char
  | .pair target kind _ _ => target ++ ':' :: kind
  | .other text _ _ => text

/-- Whether an entry names a method: by its name in any case, or with a star. -/
def Names (name : String) : Entry → Prop
  | .pair target _ _ _ => String.ofList (Text.trim target) = "*" ∨
      Text.sameFold (String.ofList (Text.trim target)) name = true
  | .other _ _ _ => False

/-- The kind that an entry asks for. -/
def kind : Entry → String
  | .pair _ kind _ _ => String.ofList (Text.trim kind)
  | .other _ _ _ => ""

variable {name kind : String}

theorem not_mem_text (e : Entry) : '+' ∉ e.text := by
  cases e with
  | pair target kind htarget hkind =>
    show '+' ∉ target ++ ':' :: kind
    rw [List.mem_append, List.mem_cons]
    rintro (hmem | heq | hmem)
    · exact htarget.1 hmem
    · exact absurd heq (by decide)
    · exact hkind.1 hmem
  | other text hplus _ => exact hplus

/-- A written entry is taken for what is meant by it. -/
theorem ofEntry_text (e : Entry) :
    ofEntry name e.text = some kind ↔ e.Names name ∧ kind = e.kind := by
  cases e with
  | pair target k htarget hkind =>
    have hpieces : Text.pieces ':' (target ++ ':' :: k) = [target, k] := by
      rw [Text.pieces_append htarget.2, Text.pieces_of_not_mem hkind.2]
    show ofEntry name (target ++ ':' :: k) = some kind ↔ _
    unfold ofEntry
    rw [hpieces]
    dsimp only
    split
    · rename_i hnames
      exact ⟨fun heq => ⟨hnames, (Option.some.inj heq).symm⟩,
        fun ⟨_, heq⟩ => congrArg some heq.symm⟩
    · rename_i hnames
      exact ⟨nofun, fun ⟨hmeant, _⟩ => absurd hmeant hnames⟩
  | other text _ hcolons =>
    refine ⟨fun hsome => ?_, fun ⟨hmeant, _⟩ => hmeant.elim⟩
    change ofEntry name text = some kind at hsome
    unfold ofEntry at hsome
    split at hsome
    · rename_i target k hpieces
      have hlength := Text.length_pieces ':' text
      rw [hpieces] at hlength
      exact absurd (Nat.succ.inj hlength).symm hcolons
    · cases hsome

theorem ofEntry_text_eq_none_iff (e : Entry) : ofEntry name e.text = none ↔ ¬ e.Names name := by
  rw [Option.eq_none_iff_forall_ne_some]
  exact ⟨fun hnone hnames => hnone e.kind (e.ofEntry_text.2 ⟨hnames, rfl⟩),
    fun hnames kind hsome => hnames (e.ofEntry_text.1 hsome).1⟩

end Entry

/-! ## Selecting -/

/-- The argument with entries. -/
def written (entries : List Entry) : String :=
  String.ofList (['+'].intercalate (entries.map Entry.text))

/-- Whether a kind is that of the first entry that names a method. -/
def First (entries : List Entry) (name kind : String) : Prop :=
  ∃ before e after, entries = before ++ e :: after ∧ e.Names name ∧ kind = e.kind ∧
    ∀ other ∈ before, ¬ other.Names name

variable {entries : List Entry} {args : Dict String String} {name kind : String}

theorem select_of_get? (hargs : args.get? "mock" = some (written entries)) (name : String) :
    select args name = entries.findSome? fun e => ofEntry name e.text := by
  have hselect : select args name =
      (Text.pieces '+' (['+'].intercalate (entries.map Entry.text))).findSome? (ofEntry name) := by
    unfold select
    rw [hargs]
    show (Text.pieces '+' (written entries).toList).findSome? (ofEntry name) = _
    rw [written, String.toList_ofList]
  rw [hselect]
  cases entries with
  -- no entry at all is written like one that is empty
  | nil => rfl
  | cons e es =>
    have hplus : ∀ p ∈ (e :: es).map Entry.text, '+' ∉ p := by
      intro p hp
      obtain ⟨e', -, rfl⟩ := List.mem_map.1 hp
      exact e'.not_mem_text
    rw [Text.pieces_intercalate hplus (List.cons_ne_nil _ _), List.findSome?_map]
    rfl

/-- The kind of the first entry that names the method is selected. -/
theorem select_eq_some_iff (hargs : args.get? "mock" = some (written entries)) :
    select args name = some kind ↔ First entries name kind := by
  rw [select_of_get? hargs, List.findSome?_eq_some_iff]
  constructor
  · rintro ⟨before, e, after, heq, hsome, hbefore⟩
    obtain ⟨hnames, hkind⟩ := e.ofEntry_text.1 hsome
    exact ⟨before, e, after, heq, hnames, hkind, fun other hother =>
      other.ofEntry_text_eq_none_iff.1 (hbefore other hother)⟩
  · rintro ⟨before, e, after, heq, hnames, hkind, hbefore⟩
    exact ⟨before, e, after, heq, e.ofEntry_text.2 ⟨hnames, hkind⟩, fun other hother =>
      other.ofEntry_text_eq_none_iff.2 (hbefore other hother)⟩

/-- Nothing is selected where no entry names the method. -/
theorem select_eq_none_iff (hargs : args.get? "mock" = some (written entries)) :
    select args name = none ↔ ∀ e ∈ entries, ¬ e.Names name := by
  rw [select_of_get? hargs, List.findSome?_eq_none_iff]
  exact forall₂_congr fun e _ => e.ofEntry_text_eq_none_iff

/-- A call by name leaves the argument alone. -/
theorem select_erase (args : Dict String String) (name : String) :
    select (args.erase "q") name = select args name := by
  unfold select
  rw [Dict.get?_erase, if_neg (by decide)]

end Mock

/-! ## Performing one thing after another -/

namespace Action

variable {α β : Type} {network : Network} {cascades : Cascades}

theorem perform_bind (a : Action α) (k : α → Action β) :
    (a >>= k).perform network cascades =
      a.perform network cascades >>= fun x => (k x).perform network cascades := by
  show (a.bind k).perform network cascades = _
  induction a with
  | pure a => rfl
  | look next ih =>
    funext p
    exact congrFun (ih p.context k) p
  | push line next ih =>
    funext p
    exact congrFun (ih k) { p with context := p.context.push line }
  | sleep ms next ih =>
    funext p
    exact congrFun (ih k) { p with elapsed := p.elapsed + ms }
  | within body next _ ih =>
    funext p
    let q := (Stage.nested (body.perform network cascades)) p
    exact congrFun (ih q.1 k) q.2
  | cascade name input output data next ih =>
    funext p
    let q := cascades name input output data p
    exact congrFun (ih q.1 k) q.2
  | exchange address request limit next ih =>
    funext p
    let reached := Stage.reach network address request limit
    exact congrFun (ih reached.1 k)
      { p with elapsed := p.elapsed + reached.2, sent := p.sent ++ [(address, request)] }

end Action

/-! ## Following a selection -/

namespace Method

variable {m : Method} {name : String} {data : m.input.Data} {network : Network}
  {cascades : Cascades} {p : Progress}

/-- What a method does once it is settled what its caller selects. -/
def follow (m : Method) (name : String) (data : m.input.Data) (selection : Option String) :
    Action (Except String m.output.Data) :=
  match selection.filter (!·.isEmpty) with
  | none => m.call data
  | some kind => do
    match ← m.mock kind data with
    | .success output => return .ok output
    | .failure => return .error (mockFailure name)
    | .unimplemented => m.call data

theorem perform_run_eq_follow (m : Method) (name : String) (data : m.input.Data) (p : Progress) :
    (m.run name data).perform network cascades p =
      (m.follow name data (Mock.select p.context.args name)).perform network cascades p :=
  rfl

/-- What comes of following a selection. A part of the method that never runs could be anything
else. -/
structure Heeds (m : Method) (name : String) (data : m.input.Data) (network : Network)
    (cascades : Cascades) (p : Progress) (selection : Option String) : Prop where
  /-- Without a kind, or with the empty one, there is only the real call. -/
  real : selection = none ∨ selection = some "" → ∀ mock,
    (follow { m with mock } name data selection).perform network cascades p =
      (m.call data).perform network cascades p
  /-- Canned output is all there is. -/
  success : ∀ kind output q, selection = some kind → kind ≠ "" →
    (m.mock kind data).perform network cascades p = (.success output, q) → ∀ call,
      (follow { m with call } name data selection).perform network cascades p = (.ok output, q)
  /-- Canned output that could not be made leaves a sentence and no more. -/
  failure : ∀ kind q, selection = some kind → kind ≠ "" →
    (m.mock kind data).perform network cascades p = (.failure, q) → ∀ call,
      (follow { m with call } name data selection).perform network cascades p =
        (.error ("failed to generate mock for method: " ++ name), q)
  /-- Where there is no canned output, the real call goes on from what the attempt has left. -/
  unimplemented : ∀ kind q, selection = some kind → kind ≠ "" →
    (m.mock kind data).perform network cascades p = (.unimplemented, q) →
      (m.follow name data selection).perform network cascades p =
        (m.call data).perform network cascades q

/-- With a kind, the canned output is asked first. -/
theorem perform_follow_some {kind : String} (hkind : kind ≠ "") (p : Progress) :
    (m.follow name data (some kind)).perform network cascades p =
      let tried := (m.mock kind data).perform network cascades p
      match tried.1 with
      | .success output => (.ok output, tried.2)
      | .failure => (.error (mockFailure name), tried.2)
      | .unimplemented => (m.call data).perform network cascades tried.2 := by
  have hkept : (some kind).filter (!·.isEmpty) = some kind :=
    Option.filter_some_pos (by rw [Bool.not_eq_true', String.isEmpty_eq_false_iff]; exact hkind)
  unfold follow
  rw [hkept]
  dsimp only
  rw [Action.perform_bind]
  show (Action.perform network cascades _ ((m.mock kind data).perform network cascades p).2) = _
  generalize (m.mock kind data).perform network cascades p = tried
  obtain ⟨outcome, q⟩ := tried
  cases outcome <;> rfl

theorem heeds (m : Method) (name : String) (data : m.input.Data) (p : Progress)
    (selection : Option String) : m.Heeds name data network cascades p selection where
  real h mock := by rcases h with rfl | rfl <;> rfl
  success kind output q hsome hkind htried call := by
    have htried : (mock { m with call } kind data).perform network cascades p =
      (.success output, q) := htried
    rw [hsome, perform_follow_some hkind, htried]
  failure kind q hsome hkind htried call := by
    have htried : (mock { m with call } kind data).perform network cascades p = (.failure, q) :=
      htried
    rw [hsome, perform_follow_some hkind, htried]
    rfl
  unimplemented kind q hsome hkind htried := by
    rw [hsome, perform_follow_some hkind, htried]

end Method

/-! ## The ways in -/

/-- What is done for a nested context depends on nothing but what it does there. -/
theorem Stage.nested_congr {α : Type} {body body' : Stage α} {p : Progress}
    (h : body { p with context := p.context.nested } =
      body' { p with context := p.context.nested }) :
    Stage.nested body p = Stage.nested body' p :=
  congrArg (fun a : α × Progress => (a.1, (⟨{ p.context with
    outbox := p.context.outbox ++ a.2.context.outbox }, a.2.elapsed, a.2.sent⟩ : Progress))) h

namespace Method

variable {m : Method} {name : String} {data : m.input.Data} {network : Network}
  {cascades : Cascades} {p : Progress}

/-- A nested run sees the selection of the caller. -/
theorem nested_run (m : Method) (name : String) (data : m.input.Data) (p : Progress) :
    Stage.nested ((m.run name data).perform network cascades) p =
      Stage.nested ((m.follow name data (Mock.select p.context.args name)).perform network cascades)
        p := by
  refine Stage.nested_congr ?_
  rw [perform_run_eq_follow]
  show Action.perform network cascades (m.follow name data
    (Mock.select (p.context.args.erase "q") name)) _ = _
  rw [Mock.select_erase]

/-- A method that runs in place. -/
theorem perform_cascadeTo (m : Method) (name : String) (data : m.input.Data) (p : Progress) :
    (m.cascadeTo name data).perform network cascades p =
      Stage.nested ((m.follow name data (Mock.select p.context.args name)).perform network cascades)
        p :=
  nested_run m name data p

end Method

theorem Dispatch.args_context (d : Dispatch) (r : Request) : (d.context r).args = r.args := by
  unfold context Context.ofRequest Context.ensureSession
  split <;> rfl

/-- A method that is called by name. -/
theorem Dispatch.cascades_of_get? {d : Dispatch} {registry : Registry} {name : String}
    {h : Handler} (hregistry : d.registry = some registry) (hget : registry.get? name = some h)
    (depth : Nat) (output : Shape) (data : h.method.input.Data) (p : Progress) :
    d.cascades (depth + 1) name h.method.input output data p =
      let run := Stage.nested ((h.method.follow h.name data
        (Mock.select p.context.args h.name)).perform d.network (d.cascades depth)) p
      (run.1.bind (Cascade.asShape name h.method.output output), run.2) := by
  rw [← Method.perform_cascadeTo]
  unfold Dispatch.cascades
  simp only [hregistry, hget, dif_pos]
  generalize (h.method.cascadeTo h.name data).perform d.network (d.cascades depth) = body
  show (_ : Stage (Except String output.Data)) (body p).2 = _
  cases (body p).1 <;> rfl

/-! ## The whole of it -/

namespace Method

/-- **Canned output.** The argument `mock` selects the kind of the first entry that names the
method, a run follows the selection, and whichever way a method is entered, from outside in both
forms, by name or in place, it is the selection of the caller that it follows. -/
theorem mock_selection :
    (∀ (args : Dict String String) (name : String),
      (args.get? "mock" = none → Mock.select args name = none) ∧
      ∀ entries : List Mock.Entry, args.get? "mock" = some (Mock.written entries) →
        (∀ kind, Mock.select args name = some kind ↔ Mock.First entries name kind) ∧
        (Mock.select args name = none ↔ ∀ e ∈ entries, ¬ e.Names name)) ∧
    (∀ (m : Method) (name : String) (data : m.input.Data) (network : Network)
      (cascades : Cascades) (p : Progress),
      (m.run name data).perform network cascades p =
        (m.follow name data (Mock.select p.context.args name)).perform network cascades p ∧
      (m.cascadeTo name data).perform network cascades p = Stage.nested ((m.follow name data
        (Mock.select p.context.args name)).perform network cascades) p ∧
      ∀ selection, m.Heeds name data network cascades p selection) ∧
    ∀ (h : Handler) (d : Dispatch),
      (∀ (r : Request) (protocol : Protocol) (layout : Json.Layout) (input : h.method.input.Data),
        h.method.input.read? protocol r.payload = some input →
          h.process d r protocol layout = h.answerOf d.limits protocol layout
            (d.start r (h.method.follow h.name input (Mock.select r.args h.name)))) ∧
      ∀ (registry : Registry) (name : String) (depth : Nat) (output : Shape)
        (data : h.method.input.Data) (p : Progress),
        d.registry = some registry → registry.get? name = some h →
          d.cascades (depth + 1) name h.method.input output data p =
            let run := Stage.nested ((h.method.follow h.name data
              (Mock.select p.context.args h.name)).perform d.network (d.cascades depth)) p
            (run.1.bind (Cascade.asShape name h.method.output output), run.2) := by
  refine ⟨fun args name => ⟨fun hargs => ?_, fun entries hargs => ?_⟩,
    fun m name data network cascades p => ?_, fun h d => ⟨fun r protocol layout input hread => ?_,
      fun registry name depth output data p hregistry hget => ?_⟩⟩
  · unfold Mock.select
    rw [hargs]
    rfl
  · exact ⟨fun kind => Mock.select_eq_some_iff hargs, Mock.select_eq_none_iff hargs⟩
  · exact ⟨perform_run_eq_follow m name data p, perform_cascadeTo m name data p,
      heeds m name data p⟩
  · rw [Handler.process_of_read? hread]
    refine congrArg (h.answerOf d.limits protocol layout) ?_
    show Action.perform _ _ (h.method.run h.name input) ⟨d.context r, 0, []⟩ = _
    rw [perform_run_eq_follow]
    show Action.perform _ _
      (h.method.follow h.name input (Mock.select (d.context r).args h.name)) _ = _
    rw [Dispatch.args_context]
    rfl
  · exact Dispatch.cascades_of_get? hregistry hget depth output data p

/-- Where the third of four entries is the first that names the method, it answers seven from canned
output, whatever its real call is, and also when it is called by name. -/
theorem mock_selection_add :
    let h := Sample.Gallery.add "ADD"
    let entries : List Mock.Entry := [.other "x".toList (by decide) (by decide),
      .other "a:b:c".toList (by decide) (by decide),
      .pair " add ".toList " 7 ".toList (by decide) (by decide),
      .pair "*".toList "none".toList (by decide) (by decide)]
    let args := Dict.ofList [("mock", "x+a:b:c+ add : 7 +*:none")]
    let registry : Registry := ⟨["all"], (∅ : Registry.Namespace).insert "add" ⟨h, none⟩⟩
    let d : Dispatch := { Handler.lonely with registry := some registry }
    let r : Request := { Request.plain "ADD" (toBinary (⟨1, 10⟩ : Sample.Pair)) with args }
    let p : Progress := ⟨d.context r, 0, []⟩
    args.get? "mock" = some (Mock.written entries) ∧ Mock.select args "ADD" = some "7" ∧
      (∀ call, (follow { h.method with call } "ADD" h.sample (some "7")).perform d.network
        (d.cascades d.depth) p = (.ok (7 : Int64), p)) ∧
      h.process d r .binary .compact = h.answerOf d.limits .binary .compact (.ok (7 : Int64), p) ∧
      (d.cascades 1 "Add" h.method.input h.method.output h.sample p).1 = .ok (7 : Int64) := by
  intro h entries args registry d r p
  obtain ⟨hselect, hrun, hways⟩ := mock_selection
  have hargs : args.get? "mock" = some (Mock.written entries) := by decide +kernel
  have hother : ∀ other ∈ entries.take 2, ¬ other.Names "ADD" := by
    intro other hmem
    rcases List.mem_cons.1 hmem with rfl | hmem
    · exact id
    · rw [List.mem_singleton.1 hmem]
      exact id
  have hfirst : Mock.First entries "ADD" "7" :=
    ⟨entries.take 2, entries[2], entries.drop 3, rfl, .inr (by decide), rfl, hother⟩
  have hselected : Mock.select args "ADD" = some "7" :=
    (((hselect args "ADD").2 entries hargs).1 "7").2 hfirst
  have hcontext : Mock.select p.context.args h.name = some "7" := by
    show Mock.select (d.context r).args "ADD" = some "7"
    rw [d.args_context]
    exact hselected
  have hheeds := (hrun h.method "ADD" h.sample d.network (d.cascades d.depth) p).2.2 (some "7")
  have hcanned := hheeds.success "7" (7 : Int64) p rfl (by decide) rfl
  have hread : h.method.input.read? .binary r.payload = some h.sample := by decide +kernel
  have hprocess := (hways h d).1 r .binary .compact h.sample hread
  have hget : registry.get? "Add" = some h := by
    have hlower : Text.lower "Add" = "add" := by decide +kernel
    unfold Registry.get? Registry.entry?
    rw [hlower, Dict.get?_insert, if_pos (by decide +kernel)]
    rfl
  have hnested := (hways h d).2 registry "Add" 0 h.method.output h.sample p rfl hget
  refine ⟨hargs, hselected, hcanned, ?_, ?_⟩
  · rw [hprocess]
    refine congrArg (h.answerOf d.limits .binary .compact) ?_
    show d.start r (h.method.follow "ADD" h.sample (Mock.select args "ADD")) = _
    rw [hselected]
    exact hcanned h.method.call
  · rw [hnested, hcontext]
    rfl

end Method

end Switchboard
