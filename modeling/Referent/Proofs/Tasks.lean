import Referent.Proofs.Loading

/-!
# Tasks around a build

A build opens tasks three levels deep and may fail at every read in between. Work that opens a task
closes it unless it fails, so it nests: the tasks that it found are as they were, and if it failed,
tasks of its own may be open on top of them (`Loading.Nests`). Only work inside a task may count
for it (`Loading.Within`), and the task is gone with its count when the work is done. Closing what
is open above the depth that a build started from therefore gives back the stack that it found
(`builds_restore_tasks`).
-/

namespace Referent

namespace Progress

/-- Closing all tasks above a stack gives the stack back. -/
theorem abortTo_depth {base progress : Progress} (h : base.tasks <:+ progress.tasks) :
    progress.abortTo base.depth = base := by
  obtain ⟨opened, hopened⟩ := h
  unfold abortTo depth
  rw [← hopened]
  have hdrop : (opened ++ base.tasks).length - base.tasks.length = opened.length := by
    simp
  rw [hdrop, List.drop_left]

theorem exists_tasks_count {progress : Progress} {current : Task} {outer : List Task}
    (h : progress.tasks = current :: outer) (items : Nat) :
    ∃ counted, (progress.count items).tasks = counted :: outer := by
  simp [count, h]

end Progress

namespace Loading

/-! ## Work and the tasks it finds -/

/-- Work that leaves the tasks it finds as they are. If it fails, more tasks may be open on top of
them. -/
def Nests (work : Loading α) : Prop :=
  ∀ bench : Workbench, match work bench with
    | .ok _ after => after.desk.progress = bench.desk.progress
    | .error _ after => bench.desk.progress.tasks <:+ after.desk.progress.tasks

/-- Work inside a task. It may change the innermost task, which counts its items, and leaves the
tasks around it as they are. -/
def Within (work : Loading α) : Prop :=
  ∀ (bench : Workbench) (current : Task) (outer : List Task),
    bench.desk.progress.tasks = current :: outer →
    match work bench with
    | .ok _ after => ∃ counted, after.desk.progress.tasks = counted :: outer
    | .error _ after => outer <:+ after.desk.progress.tasks

theorem Nests.within {work : Loading α} (h : Nests work) : Within work := by
  intro bench current outer htasks
  have hnests := h bench
  cases hrun : work bench with
  | ok a after =>
    rw [hrun] at hnests
    exact ⟨current, by rw [hnests, htasks]⟩
  | error err after =>
    rw [hrun] at hnests
    show outer <:+ after.desk.progress.tasks
    rw [htasks] at hnests
    exact (List.suffix_cons current outer).trans hnests

theorem Nests.bind {first : Loading α} {next : α → Loading β} (hfirst : Nests first)
    (hnext : ∀ a, Nests (next a)) : Nests (first >>= next) := by
  intro bench
  have hnests := hfirst bench
  rw [bind_apply]
  cases hrun : first bench with
  | error err after =>
    rw [hrun] at hnests
    exact hnests
  | ok a after =>
    rw [hrun] at hnests
    have hrest := hnext a after
    rw [hnests] at hrest
    exact hrest

theorem Within.bind {first : Loading α} {next : α → Loading β} (hfirst : Within first)
    (hnext : ∀ a, Within (next a)) : Within (first >>= next) := by
  intro bench current outer htasks
  have hwithin := hfirst bench current outer htasks
  rw [bind_apply]
  cases hrun : first bench with
  | error err after =>
    rw [hrun] at hwithin
    exact hwithin
  | ok a after =>
    rw [hrun] at hwithin
    obtain ⟨counted, hcounted⟩ := hwithin
    exact hnext a after counted outer hcounted

/-! ## Steps -/

theorem nests_pure (a : α) : Nests (pure a) := fun _ => rfl

theorem nests_get : Nests get := fun _ => rfl

/-- A change that the tasks have no part in. -/
theorem nests_modify {change : Workbench → Workbench}
    (h : ∀ bench, (change bench).desk.progress = bench.desk.progress) : Nests (modify change) := h

/-- Reading the corpus, whether or not it succeeds, is no matter of tasks. -/
theorem nests_ask (question : Access → Except StoreError α × Access) : Nests (ask question) := by
  intro bench
  unfold ask
  cases hquestion : question bench.desk.corpus with
  | mk answer corpus =>
    cases answer with
    | ok a => rfl
    | error cause => exact List.suffix_refl _

theorem within_count (items : Nat) : Within (report (·.count items)) := by
  intro bench current outer htasks
  exact bench.desk.progress.exists_tasks_count htasks items

/-- A task that is done is gone with what it counted. -/
theorem Within.task {work : Loading α} (h : Within work) (name : String) (unit : Option String) :
    Nests (task name unit work) := by
  intro bench
  have hwithin := h (starting name unit bench) { name, unit } bench.desk.progress.tasks rfl
  rw [task_eq]
  cases hrun : work (starting name unit bench) with
  | error err after =>
    rw [hrun] at hwithin
    exact hwithin
  | ok a after =>
    rw [hrun] at hwithin
    obtain ⟨counted, hcounted⟩ := hwithin
    show after.desk.progress.finish.2 = bench.desk.progress
    simp [Progress.finish, hcounted]

theorem Nests.forM {pass : ProjectId → Loading Unit} (h : ∀ project, Nests (pass project))
    (projects : List ProjectId) : Nests (projects.forM pass) := by
  induction projects with
  | nil => exact nests_pure ()
  | cons project projects ih => exact (h project).bind fun _ => ih

/-- A failed build closes its own tasks and no others. -/
theorem Nests.progress_closingTasks {work : Loading α} (h : Nests work) (bench : Workbench) :
    match closingTasks work bench with
    | .ok _ after => after.desk.progress = bench.desk.progress
    | .error _ after => after.desk.progress = bench.desk.progress := by
  have hnests := h bench
  unfold closingTasks
  cases hrun : work bench with
  | ok a after =>
    rw [hrun] at hnests
    exact hnests
  | error err after =>
    rw [hrun] at hnests
    exact Progress.abortTo_depth hnests

/-! ## Passes -/

theorem declarations_nests (project : ProjectId) (origin : Origin) :
    Nests (declarations project origin) := by
  apply Within.task
  apply (nests_ask _).within.bind
  intro rows
  refine Within.bind (Nests.within ?_) fun _ => within_count rows.length
  exact nests_modify fun _ => rfl

theorem inheritance_nests (project : ProjectId) (toRef : Nat → EntityRef)
    (elsewhere : EntityId → Option EntityRef) : Nests (inheritance project toRef elsewhere) := by
  apply Within.task
  -- The two inner tasks are opened and closed one after the other under the outer one.
  refine Nests.within (Nests.bind (Within.task ?_ _ _) fun bases => Within.task ?_ _ _)
  · apply (nests_ask _).within.bind
    intro rows
    apply (within_count rows.length).bind
    intro _
    exact (nests_pure _).within
  · apply (nests_ask _).within.bind
    intro rows
    apply nests_get.within.bind
    intro bench
    refine Within.bind (Nests.within ?_) fun _ => within_count _
    exact nests_modify fun _ => rfl

end Loading

theorem LibraryModel.passes_nests (mode : Mode) (libraries : List ProjectId) :
    (passes mode libraries).Nests := by
  apply Loading.Nests.bind
  · exact .forM (fun project => Loading.declarations_nests project .library) libraries
  · intro _
    cases mode with
    | plain => exact Loading.nests_pure ()
    | «virtual» =>
      exact .forM (fun project => Loading.inheritance_nests project .library _) libraries

/-! ## Builds -/

/-- Where a run has come to, whether it has succeeded or failed. -/
def outcomeState : EStateM.Result ε σ α → σ
  | .ok _ s => s
  | .error _ s => s

namespace LibraryModel

theorem progress_load (libraries : List ProjectId) (model : LibraryModel) (desk : Desk) :
    (outcomeState (load libraries (model, desk))).2.progress = desk.progress := by
  have hwork := Loading.Nests.progress_closingTasks ((passes_nests model.mode libraries).within.task
    ("Loading " ++ toString libraries.length ++ " libraries") none) { desk, draft := model.draft }
  unfold load
  simp only
  split
  · rename_i hrun
    rw [hrun] at hwork
    exact hwork
  · rename_i hrun
    rw [hrun] at hwork
    exact hwork

theorem progress_loaded (libraries : List ProjectId) (model : LibraryModel) (desk : Desk) :
    (outcomeState (model.loaded libraries desk)).progress = desk.progress := by
  have hload := progress_load libraries model desk
  unfold loaded
  split
  · rename_i hrun
    rw [hrun] at hload
    exact hload
  · rename_i hrun
    rw [hrun] at hload
    exact hload

end LibraryModel

namespace ProjectModel

theorem progress_assemble {passes : Loading Unit} (h : passes.Nests) (project : ProjectId)
    (library : LibraryModel) (start : Table) (title : String) (desk : Desk) :
    (outcomeState (assemble project library start title passes desk)).progress =
      desk.progress := by
  have hwork := Loading.Nests.progress_closingTasks
    (h.within.task (title ++ " for " ++ project.display) none) { desk, draft.table := start }
  unfold assemble
  simp only
  split
  · rename_i hrun
    rw [hrun] at hwork
    exact hwork
  · rename_i hrun
    rw [hrun] at hwork
    exact hwork

theorem progress_build (mode : Mode) (project : ProjectId) (library : LibraryModel)
    (soleHolder : Bool) (desk : Desk) :
    (outcomeState (build mode project library soleHolder desk)).progress = desk.progress := by
  have hdeclared := Loading.declarations_nests project .internal
  cases mode with
  | plain => exact progress_assemble hdeclared project library _ _ desk
  | «virtual» =>
    have hassemble := progress_assemble
      (hdeclared.bind fun _ => Loading.inheritance_nests project .project library.findById?)
      project library ({} : Table).trackIds "Building virtual type model" desk
    show (outcomeState (buildVirtual project library soleHolder desk)).progress = desk.progress
    unfold buildVirtual
    rw [bind_apply]
    -- Giving up the indexes behind the passes cannot fail and opens nothing.
    split
    · rename_i hrun
      rw [hrun] at hassemble
      exact hassemble
    · rename_i hrun
      rw [hrun] at hassemble
      exact hassemble

end ProjectModel

/-- Loading libraries, building a library model and building a project model, in either mode,
leave the stack of tasks exactly as they found it: the same tasks are open with the same counts,
whatever tasks were open before and whichever reads fail. -/
theorem builds_restore_tasks (desk : Desk) :
    (∀ (model : LibraryModel) (libraries : List ProjectId),
      (outcomeState (LibraryModel.load libraries (model, desk))).2.progress = desk.progress) ∧
    (∀ (mode : Mode) (libraries : List ProjectId) (core : Option LibraryModel),
      (outcomeState (LibraryModel.build mode libraries core desk)).progress = desk.progress) ∧
    (∀ (mode : Mode) (project : ProjectId) (library : LibraryModel) (soleHolder : Bool),
      (outcomeState (ProjectModel.build mode project library soleHolder desk)).progress =
        desk.progress) := by
  refine ⟨?_, ?_, ?_⟩
  · intro model libraries
    exact LibraryModel.progress_load libraries model desk
  · intro mode libraries core
    exact LibraryModel.progress_loaded libraries _ desk
  · intro mode project library soleHolder
    exact ProjectModel.progress_build mode project library soleHolder desk

end Referent
