import Switchboard.Proofs.Cookie

/-!
# Arguments survive their line

A line of arguments is put together from escaped keys and values with ampersands and equals signs,
none of which can be taken for what is escaped. So it is cut where it was put together, and every
list of arguments is read back, empty keys and values too (`Url.readArguments_writeArguments`). A
line that nobody wrote so is cut first and decoded after that, and may fail in any key or value. But
no escape reaches across a separator, so it fails exactly if the line as a whole is malformed
(`Url.isSome_readArguments_iff`).
-/

namespace Switchboard.Url

variable {a : String} {cs : List Char}

/-- Arguments as they are written: pairs like those of cookies, with ampersands between them. -/
def writeArguments (es : List (String × String)) : String :=
  "&".intercalate (es.map fun (key, value) => Cookie.pair key value)

/-! ## Writing, then reading -/

theorem readArgument_pair (key value : String) :
    readArgument (Cookie.pair key value).toList = some (key, value) := by
  have hequals : '=' ∉ (encode key).toList := fun h => (plain_of_mem_encode h).2.1 rfl
  unfold readArgument
  rw [Cookie.toList_pair, Text.splitFirst_append hequals]
  show (do return (← decode (String.ofList (encode key).toList),
    ← decode (String.ofList (encode value).toList))) = some (key, value)
  rw [String.ofList_toList, String.ofList_toList, decode_encode, decode_encode]
  rfl

theorem ampersand_not_mem_pair (key value : String) : '&' ∉ (Cookie.pair key value).toList := by
  intro h
  rcases (Cookie.escaped_pair key value).1 '&' h with hplain | hplain | hplain
  all_goals exact absurd hplain (by decide)

/-- The line is cut into the arguments that it was put together from. -/
theorem pieces_writeArguments (es : List (String × String)) :
    (Text.pieces '&' (writeArguments es).toList).filter (!·.isEmpty) =
      es.map fun e => (Cookie.pair e.1 e.2).toList := by
  have hlines : (writeArguments es).toList =
      ['&'].intercalate (es.map fun e => (Cookie.pair e.1 e.2).toList) := by
    unfold writeArguments
    rw [String.toList_intercalate, List.map_map]
    rfl
  rw [hlines, Text.pieces_eq_splitOn]
  cases es with
  | nil => rfl
  | cons e es =>
    have hfree : ∀ p ∈ (e :: es).map fun e => (Cookie.pair e.1 e.2).toList, '&' ∉ p :=
      List.forall_mem_map.2 fun e _ => ampersand_not_mem_pair e.1 e.2
    rw [List.splitOn_intercalate '&' hfree (List.cons_ne_nil _ _)]
    -- an argument has an equals sign at least, so none of them is left out
    refine List.filter_eq_self.2 (List.forall_mem_map.2 fun e _ => ?_)
    rw [Cookie.toList_pair]
    cases (encode e.1).toList <;> rfl

/-- Every list of arguments is read back, where of two with one key the later one counts. -/
theorem readArguments_writeArguments (es : List (String × String)) :
    readArguments (writeArguments es) = some (Dict.ofList es) := by
  have hread : (es.map fun e => (Cookie.pair e.1 e.2).toList).mapM readArgument = some es := by
    induction es with
    | nil => rfl
    | cons e es ih =>
      rw [List.map_cons, List.mapM_cons, readArgument_pair, ih]
      rfl
  unfold readArguments
  rw [pieces_writeArguments]
  dsimp only
  rw [hread]
  rfl

/-! ## Malformed lines -/

theorem isSome_mapM_iff {α β : Type} {f : α → Option β} {as : List α} :
    (as.mapM f).isSome ↔ ∀ a ∈ as, (f a).isSome := by
  induction as with
  | nil => exact ⟨fun _ => nofun, fun _ => rfl⟩
  | cons a as ih =>
    rw [List.mapM_cons, List.forall_mem_cons, ← ih]
    cases f a with
    | none => exact ⟨nofun, fun h => h.1⟩
    | some b =>
      cases as.mapM f with
      | none => exact ⟨nofun, fun h => h.2⟩
      | some bs => exact ⟨fun _ => ⟨rfl, rfl⟩, fun _ => rfl⟩

theorem isSome_readArgument_iff : (readArgument cs).isSome ↔ WellEscaped cs := by
  have hboth : ∀ x y : Option String,
      (do return (← x, ← y) : Option (String × String)).isSome ↔ x.isSome ∧ y.isSome := by
    intro x y
    cases x <;> cases y <;> simp
  have hdecode : ∀ ds : List Char, (decode (String.ofList ds)).isSome ↔ WellEscaped ds := by
    intro ds
    rw [isSome_decode_iff, String.toList_ofList]
  unfold readArgument
  by_cases hequals : '=' ∈ cs
  · obtain ⟨key, value, rfl, hkey⟩ := List.eq_append_cons_of_mem hequals
    rw [Text.splitFirst_append hkey, wellEscaped_append_cons (by decide) (by decide), ← hdecode,
      ← hdecode]
    exact hboth _ _
  · rw [Text.splitFirst_of_not_mem hequals, ← hdecode]
    exact (hboth _ _).trans (and_iff_left ((hdecode []).2 wellEscaped_nil))

/-- Arguments can be read exactly if two digits stand behind every percent sign of the line. -/
theorem isSome_readArguments_iff : (readArguments a).isSome ↔ WellEscaped a.toList := by
  have hpieces : (((Text.pieces '&' a.toList).filter (!·.isEmpty)).mapM readArgument).isSome ↔
      ∀ p ∈ Text.pieces '&' a.toList, WellEscaped p := by
    rw [isSome_mapM_iff]
    refine forall_congr' fun p => ?_
    rw [List.mem_filter, isSome_readArgument_iff, and_imp]
    refine forall_congr' fun _ => ?_
    cases p with
    | nil => exact ⟨fun _ => wellEscaped_nil, fun h _ => h⟩
    | cons c p => exact forall_prop_of_true rfl
  have hcut : WellEscaped a.toList ↔ ∀ p ∈ Text.pieces '&' a.toList, WellEscaped p :=
    wellEscaped_iff_pieces (by decide) (by decide)
  rw [hcut, ← hpieces]
  unfold readArguments
  dsimp only
  cases ((Text.pieces '&' a.toList).filter (!·.isEmpty)).mapM readArgument <;> exact Iff.rfl

/-- An escape does not go on behind a separator. -/
example : readArguments "q=%4&1" = none := by decide +kernel

/-- **Arguments.** What is escaped is read back, text by text and argument by argument, where the
last one of a key counts; and reading arguments fails exactly at a percent sign that two digits of
base sixteen do not follow. -/
theorem arguments_read_back :
    (∀ s, decode (encode s) = some s) ∧
    (∀ es, ∃ d, readArguments (writeArguments es) = some d ∧
      ∀ key value, d.get? key = some value ↔
        ∃ before after, es = before ++ (key, value) :: after ∧ ∀ e ∈ after, e.1 ≠ key) ∧
    ∀ line, readArguments line = none ↔
      ∃ after, '%' :: after <:+ line.toList ∧ ¬ BeginsWithDigits after := by
  refine ⟨decode_encode, fun es => ?_, fun line => ?_⟩
  · exact ⟨Dict.ofList es, readArguments_writeArguments es, Dict.get?_ofList_eq_some_iff es⟩
  · rw [← Option.not_isSome_iff_eq_none, isSome_readArguments_iff, WellEscaped, not_forall]
    exact exists_congr fun after => Classical.not_imp

end Switchboard.Url
