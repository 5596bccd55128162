import Diameter.Dict.Index

/-!
# Dict.Commands

The command index. A command is never replaced: a dictionary that declares one again is refused, so
every declaration of the files is the one a lookup finds (`Commanded.findCommand_eq`).
-/

namespace Diameter.Dict

open Lib

variable {s : Snapshot}
variable {app : App} {commands commands' : GoMap CommandIdx Command} {cmd : Command} {s' : Snapshot}
  {ord : RangeOrder}

namespace Snapshot

theorem addCommand_eq {app : UInt32}
    (h : addCommand app commands cmd = .ok commands') :
    commands.lookup ⟨app, cmd.code⟩ = none ∧
      commands' = commands.insert ⟨app, cmd.code⟩ cmd := by
  unfold addCommand at h
  split at h
  · cases h
  rename_i hnone
  cases h
  exact ⟨Option.not_isSome_iff_eq_none.1 hnone, rfl⟩

theorem addCommand_keeps {app : UInt32}
    {old : Command} {idx : CommandIdx} (hold : commands.lookup idx = some old)
    (h : addCommand app commands cmd = .ok commands') : commands'.lookup idx = some old := by
  obtain ⟨hnone, rfl⟩ := addCommand_eq h
  rw [GoMap.lookup_insert_eq]
  split
  next hidx =>
    rw [hidx, hnone] at hold
    cases hold
  · exact hold

theorem addApp_commands {s : Snapshot} (h : s.addApp app = .ok s') :
    app.command.foldlM (addCommand app.id) s.command = .ok s'.command := by
  unfold addApp at h
  split at h
  · cases h
  rename_i command hcommand
  cases h
  exact hcommand

theorem indexFiles_command {s : Snapshot} (h : s.indexFiles = .ok s')
    (happ : app ∈ s.apps) (hcmd : cmd ∈ app.command) :
    s'.command.lookup ⟨app.id, cmd.code⟩ = some cmd := by
  refine foldlM_establishes (P := fun t : Snapshot =>
    t.command.lookup ⟨app.id, cmd.code⟩ = some cmd) happ ?_ ?_ h
  · intro t t' hstep
    refine foldlM_establishes (P := fun m : GoMap CommandIdx Command =>
      m.lookup ⟨app.id, cmd.code⟩ = some cmd) hcmd ?_ ?_ (addApp_commands hstep)
    · intro m m' hm
      rw [(addCommand_eq hm).2]
      exact AList.lookup_insert _
    · exact fun m c m' _ hold hm => addCommand_keeps hold hm
  · intro t a t' _ hold hstep
    exact foldlM_invariant (P := fun m : GoMap CommandIdx Command =>
      m.lookup ⟨app.id, cmd.code⟩ = some cmd)
      (fun m c m' _ hold hm => addCommand_keeps hold hm) (addApp_commands hstep) hold

theorem build_command {s : Snapshot} (h : s.build ord = .ok s') :
    ∃ loaded, s.indexFiles = .ok loaded ∧ s'.command = loaded.command := by
  obtain ⟨loaded, named, registered, hload, -, hname, hreg, -, -, rfl⟩ := build_eq_ok.1 h
  exact ⟨loaded, hload, by rw [phases_frame hname hreg]⟩

/-- The commands of the files are the ones that lookups find. -/
def Commanded (s : Snapshot) : Prop :=
  ∀ app ∈ s.apps, ∀ cmd ∈ app.command, s.command.lookup ⟨app.id, cmd.code⟩ = some cmd

theorem with_commanded {s : Snapshot} {files : List File}
    {regs : List Registration} (h : s.with ord files regs = .ok s') : Commanded s' := by
  obtain ⟨loaded, hload, hcommand⟩ := build_command h
  intro app happ cmd hcmd
  have hfiles : s'.files = s.files ++ files := (with_indexed h).2.1
  rw [hcommand]
  refine indexFiles_command hload ?_ hcmd
  unfold apps at happ ⊢
  rw [hfiles] at happ
  exact happ

end Snapshot

/-! ## Histories -/

open Snapshot

theorem Op.apply_commanded {s : Snapshot} {op : Op} (hs : Commanded s)
    (h : op.apply ord s = .ok s') : Commanded s' := by
  rcases Op.apply_cases h with ⟨files, regs, hwith⟩ | ⟨strict, depth, rfl⟩
  · exact with_commanded hwith
  · exact hs

theorem Published.commanded (h : Published s) : Commanded s := by
  obtain ⟨calls, hrun⟩ := h
  refine run_invariant (fun _ call _ _ hs hstep => call.2.apply_commanded hs hstep) hrun ?_
  intro app happ
  cases happ

theorem Snapshot.Commanded.findCommand_eq (h : Commanded s) (happ : app ∈ s.apps)
    (hcmd : cmd ∈ app.command) : s.findCommand app.id cmd.code = .ok cmd := by
  unfold findCommand
  rw [h app happ cmd hcmd]

end Diameter.Dict
