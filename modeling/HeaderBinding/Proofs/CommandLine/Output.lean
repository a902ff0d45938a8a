import HeaderBinding.CommandLine.Run
import HeaderBinding.Proofs.Except
import HeaderBinding.Proofs.Json.RoundTrip
import HeaderBinding.Proofs.Record.RoundTrip

/-!
# What a Run Prints

The output of a run that shows modules, and what can be told from it.

An action may print at any time, and what it has printed stays. So it has to be said of each action
what has been printed behind it, whether it fails or not. `Silent` are the actions that print
nothing. `Prints` are those that print one text when they are done and fail without a word. A silent
action may stand in front of either kind, which is all that is needed to go through a run. It also
shows what would go wrong: nothing that may fail can be put behind an action that prints.

Whoever has the output has the modules. Shown in full they are JSON text, which reads back as the
list of them; shown in short they are one summary behind the other, and each starts with the name of
its module.

## Main definitions

* `Silent`: An action that prints nothing.
* `Prints`: An action that prints one text in the end, or fails with nothing printed.
* `shown`: The text that shows modules, if there is one.
* `Writable`: There is such a text.
* `Shows`: An output shows modules.

## Theorems

* `Silent.bind`, `Prints.bind`: A silent action in front of another.
* `prints_showModules`: What showing modules prints.
* `BindingModule.usable_toJson`: A module can be written as JSON.
* `shows_of_shown`: What is printed shows the modules.
-/

namespace HeaderBinding

open Json in
/-- Whatever is in a module, it can be written as JSON and held. -/
theorem BindingModule.usable_toJson (m : BindingModule) : m.toJson.usable = true := by
  simp [toJson]

namespace CommandLine

open RunM

section Actions

variable {α β : Type} {action : RunM α} {next : α → RunM β} {before after : Progress}

/-- An action that succeeds is followed by the next one. -/
theorem runFrom_bind_ok {a : α} (h : action.runFrom before = (.ok a, after)) :
    (action >>= next).runFrom before = (next a).runFrom after := by
  simp only [runFrom, ExceptT.run] at h
  simp only [runFrom, bind, ExceptT.bind, ExceptT.run, ExceptT.mk, StateT.bind]
  rw [h]
  rfl

/-- An action that fails is the last one, and what it has left behind stays. -/
theorem runFrom_bind_error {e : RunError} (h : action.runFrom before = (.error e, after)) :
    (action >>= next).runFrom before = (.error e, after) := by
  simp only [runFrom, ExceptT.run] at h
  simp only [runFrom, bind, ExceptT.bind, ExceptT.run, ExceptT.mk, StateT.bind]
  rw [h]
  rfl

/-- An action has this result and prints nothing. -/
def Silent (action : RunM α) (result : Except RunError α) : Prop :=
  ∀ before, ∃ after, action.runFrom before = (result, after) ∧ after.output = before.output

/-- An action prints this text in the end, or it fails and prints nothing. -/
structure Prints (action : RunM Unit) (text : Except RunError String) : Prop where
  ok : ∀ t, text = .ok t → ∀ before, ∃ after,
    action.runFrom before = (.ok (), after) ∧ after.output = before.output ++ t
  error : ∀ e, text = .error e → ∀ before, ∃ after,
    action.runFrom before = (.error e, after) ∧ after.output = before.output

theorem silent_pure (a : α) : Silent (pure a) (.ok a) :=
  fun before => ⟨before, rfl, rfl⟩

theorem silent_attempt (result : Except RunError α) : Silent (attempt result) result :=
  fun before => ⟨before, rfl, rfl⟩

theorem silent_remark (text : String) : Silent (remark text) (.ok ()) :=
  fun before => ⟨{ before with remarks := before.remarks ++ text }, rfl, rfl⟩

theorem prints_print (text : String) : Prints (print text) (.ok text) where
  ok _ h before := by
    obtain rfl := Except.ok.inj h
    exact ⟨{ before with output := before.output ++ text }, rfl, rfl⟩
  error _ h := nomatch h

variable {result : Except RunError α}

/-- A silent action in front of a silent one. -/
theorem Silent.bind {results : α → Except RunError β} (h : Silent action result)
    (hnext : ∀ a, result = .ok a → Silent (next a) (results a)) :
    Silent (action >>= next) (result >>= results) := by
  intro before
  rcases h before with ⟨after, hrun, houtput⟩
  cases result with
  | error e => exact ⟨after, runFrom_bind_error hrun, houtput⟩
  | ok a =>
      rw [runFrom_bind_ok hrun, ← houtput]
      exact hnext a rfl after

/-- A silent action in front of one that prints. -/
theorem Prints.bind {next : α → RunM Unit} {text : α → Except RunError String}
    (h : Silent action result) (hnext : ∀ a, result = .ok a → Prints (next a) (text a)) :
    Prints (action >>= next) (result >>= text) := by
  cases result with
  | error e =>
      refine ⟨nofun, fun e' he before => ?_⟩
      obtain rfl := Except.error.inj he
      rcases h before with ⟨after, hrun, houtput⟩
      exact ⟨after, runFrom_bind_error hrun, houtput⟩
  | ok a =>
      constructor
      · intro t ht before
        rcases h before with ⟨after, hrun, houtput⟩
        rw [runFrom_bind_ok hrun, ← houtput]
        exact (hnext a rfl).ok t ht after
      · intro e he before
        rcases h before with ⟨after, hrun, houtput⟩
        rw [runFrom_bind_ok hrun, ← houtput]
        exact (hnext a rfl).error e he after

end Actions

section Showing

variable (json : Bool) (headerDir : Word) (modules : List BindingModule)

/-- The text that shows modules, if there is one. -/
def shown : Except RunError String :=
  if json then (serialize headerDir modules).map (· ++ "\n")
  else .ok (String.join (modules.map summary))

/-- There is a text that shows the modules. In JSON a directory that is no text cannot be named. -/
def Writable : Prop :=
  json = true → headerDir.isText = true ∨ modules = []

/-- Summaries are printed one behind the other. -/
theorem prints_forM_summary :
    Prints (modules.forM fun m => print (summary m)) (.ok (String.join (modules.map summary))) := by
  refine ⟨fun text htext before => ?_, nofun⟩
  obtain rfl := Except.ok.inj htext
  -- Printing a summary does not fail, so the whole list is gone through.
  induction modules generalizing before with
  | nil => exact ⟨before, rfl, String.append_empty.symm⟩
  | cons m modules ih =>
      rcases (prints_print (summary m)).ok _ rfl before with ⟨after, hrun, houtput⟩
      rcases ih after rfl with ⟨finish, hrest, hfinish⟩
      refine ⟨finish, (runFrom_bind_ok hrun).trans hrest, ?_⟩
      rw [hfinish, houtput, List.map_cons, String.join_cons, String.append_assoc]

/-- Modules are shown as one text or not at all. -/
theorem prints_showModules :
    Prints (showModules json headerDir modules) (shown json headerDir modules) := by
  cases json with
  | false => exact prints_forM_summary modules
  | true =>
      -- The text is made before it is printed, so if there is none nothing has been printed.
      have htext : shown true headerDir modules =
          serialize headerDir modules >>= fun full => .ok (full ++ "\n") := by
        cases hfull : serialize headerDir modules <;> simp only [shown, hfull] <;> rfl
      rw [htext]
      exact Prints.bind (silent_attempt _) fun full _ => prints_print (full ++ "\n")

variable {json headerDir modules}

theorem exists_shown_of_writable (h : Writable json headerDir modules) :
    ∃ text, shown json headerDir modules = .ok text := by
  cases json with
  | false => exact ⟨_, rfl⟩
  | true =>
      refine ⟨_, (if_pos rfl).trans (congrArg (Except.map _) (if_pos ?_))⟩
      rw [Bool.or_eq_true, List.isEmpty_iff]
      exact h rfl

theorem exists_error_of_not_writable (h : ¬ Writable json headerDir modules) :
    ∃ e, shown json headerDir modules = .error e := by
  rw [Writable, Classical.not_imp] at h
  rcases h with ⟨rfl, h⟩
  refine ⟨_, (if_pos rfl).trans (congrArg (Except.map _) (if_neg ?_))⟩
  rw [Bool.or_eq_true, List.isEmpty_iff]
  exact h

end Showing

section Reading

/-- An output shows modules, in full or in short. -/
structure Shows (json : Bool) (modules : List BindingModule) (output : String) : Prop where
  /-- In full it is JSON text, which reads as the list of the modules. -/
  full : json = true →
    Json.read? output.length output = some (.arr (modules.map (·.toJson)))
  /-- In short it is a summary of each module, one behind the other, with its name in front. -/
  short : json = false → ∃ summaries, output = String.join summaries ∧
    List.Forall₂ (fun m text => ∃ rest, text = "Module " ++ m.name ++ " (" ++ rest)
      modules summaries

variable {json : Bool} {headerDir : Word} {modules : List BindingModule} {text : String}

/-- The JSON text of modules reads as the list of them. -/
theorem read?_of_serialize (h : serialize headerDir modules = .ok text) :
    Json.read? (text ++ "\n").length (text ++ "\n") = some (.arr (modules.map (·.toJson))) := by
  have husable : (Json.arr (modules.map (·.toJson))).usable = true := by
    rw [Json.usable_arr, List.forall_mem_map]
    exact fun m _ => m.usable_toJson
  have htext : text = (Json.arr (modules.map (·.toJson))).pretty := by
    unfold serialize at h
    split at h
    · exact (Except.ok.inj h).symm
    · cases h
  rw [htext]
  -- The reader has as many steps as there are characters, and the newline is a blank.
  refine Json.read?_pretty (Json.whole_of_usable _ husable) ?_ (by simp)
  rw [String.length_append]
  exact Nat.le_add_right _ _

/-- Every module has a summary that starts with its name. -/
theorem forall₂_summary (modules : List BindingModule) :
    List.Forall₂ (fun m text => ∃ rest, text = "Module " ++ m.name ++ " (" ++ rest)
      modules (modules.map summary) := by
  rw [List.forall₂_map_right_iff, List.forall₂_same]
  intro m _
  unfold summary
  -- What comes behind the name is the rest, whatever it is.
  simp only [String.append_assoc, String.append_right_inj, exists_eq']

/-- What is printed shows the modules. -/
theorem shows_of_shown (h : shown json headerDir modules = .ok text) : Shows json modules text := by
  cases json with
  | false =>
      obtain rfl := Except.ok.inj h
      exact ⟨nofun, fun _ => ⟨_, rfl, forall₂_summary modules⟩⟩
  | true =>
      refine ⟨fun _ => ?_, nofun⟩
      cases hfull : serialize headerDir modules with
      | error e =>
          rw [shown, if_pos rfl, hfull] at h
          cases h
      | ok full =>
          rw [shown, if_pos rfl, hfull] at h
          obtain rfl := Except.ok.inj h
          exact read?_of_serialize hfull

end Reading

end CommandLine

end HeaderBinding
