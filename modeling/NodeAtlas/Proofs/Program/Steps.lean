import NodeAtlas.Program
import NodeAtlas.Proofs.Outcome

/-!
Reasoning about runs step by step. Of the world that a step leaves, only the files matter to the steps
behind it, so what a run leads to is told by how it ends and by its files.
-/

namespace NodeAtlas.Program

/-- What a run that starts in a world leads to: how it ends, and the files that it leaves. -/
def Leads {α : Type} (m : Run α) (w : World) (Q : Except Failure α → FileTree → Prop) : Prop :=
  Q (m.run.run w).1 (m.run.run w).2.tree

/-- A step that always succeeds and leaves the files alone. -/
def IsSilent (m : Run Unit) : Prop := ∀ w, Leads m w fun r t => r = .ok () ∧ t = w.tree

theorem isSilent_print (s : String) : IsSilent (print s) := fun _ => ⟨rfl, rfl⟩

theorem isSilent_note (notes : List Note) : IsSilent (note notes) := fun _ => ⟨rfl, rfl⟩

theorem isSilent_debug (o : Options) (notes : List Note) : IsSilent (debug o notes) := by
  unfold debug
  split
  · exact isSilent_note _
  · exact fun _ => ⟨rfl, rfl⟩

namespace Leads

variable {α β : Type} {m : Run α} {f : α → Run β} {w : World}
  {Q : Except Failure β → FileTree → Prop}

theorem imp {R : Except Failure α → FileTree → Prop} {Q : Except Failure α → FileTree → Prop}
    (h : Leads m w R) (himp : ∀ r t, R r t → Q r t) : Leads m w Q := himp _ _ h

theorem run_bind (m : Run α) (f : α → Run β) (w : World) :
    (m >>= f).run.run w = match m.run.run w with
      | (.ok a, w') => (f a).run.run w'
      | (.error e, w') => (.error e, w') := by
  rw [ExceptT.run_bind, StateT.run_bind]
  cases m.run.run w with
  | mk r w' => cases r <;> rfl

theorem bind {R : Except Failure α → FileTree → Prop} (h : Leads m w R)
    (hok : ∀ a w', R (.ok a) w'.tree → Leads (f a) w' Q)
    (herror : ∀ e t, R (.error e) t → Q (.error e) t) : Leads (m >>= f) w Q := by
  unfold Leads at *
  rw [run_bind]
  cases hm : m.run.run w with
  | mk r w' =>
    rw [hm] at h
    cases r with
    | ok a => exact hok a w' h
    | error e => exact herror e w'.tree h

theorem silent_bind {m : Run Unit} {f : Unit → Run β} (hm : IsSilent m)
    (h : ∀ w', w'.tree = w.tree → Leads (f ()) w' Q) : Leads (m >>= f) w Q :=
  bind (hm w) (fun _ w' hw' => h w' hw'.2) fun _ _ herror => nomatch herror.1

theorem get_bind {f : World → Run β} (h : Leads (f w) w Q) : Leads (get >>= f) w Q := h

theorem modify_bind {g : World → World} {f : Unit → Run β} (h : Leads (f ()) (g w) Q) :
    Leads (modify g >>= f) w Q := h

theorem orFail_bind {ε : Type} {label : ε → Failure} {x : Except ε α}
    (hok : ∀ a, x = .ok a → Leads (f a) w Q)
    (herror : ∀ e, x = .error e → Q (.error (label e)) w.tree) :
    Leads (orFail label x >>= f) w Q := by
  cases x with
  | ok a => exact hok a rfl
  | error e => exact herror e rfl

end Leads

/-! ## The steps of a run -/

theorem leads_loadSettings (o : Options) (w : World) :
    Leads (loadSettings o) w fun r t =>
      r = (readSettings w.tree o.config).map Prod.fst ∧ t = w.tree := by
  unfold loadSettings
  refine .get_bind (.orFail_bind (fun a ha => ?_) fun e he => ⟨by rw [he]; rfl, rfl⟩)
  obtain ⟨s, source⟩ := a
  refine .silent_bind (isSilent_debug o _) fun w₁ h₁ => ?_
  refine .silent_bind (isSilent_debug o _) fun w₂ h₂ => ?_
  refine .silent_bind (isSilent_debug o _) fun w₃ h₃ => ?_
  exact ⟨by rw [ha]; rfl, h₃.trans (h₂.trans h₁)⟩

/-- The definition files of a run, as its settings let it find them. -/
def definitionFiles (o : Options) (s : Settings) (t : FileTree) :
    Except Discovery.Failure (List String) :=
  Discovery.discover t s.exclude (if o.paths = [] then [s.definitions] else o.paths)

theorem leads_readOutcomes (o : Options) (s : Settings) (w : World) :
    Leads (readOutcomes o s) w fun r t => t = w.tree ∧ ∀ os, r = .ok os →
      ∃ files, definitionFiles o s w.tree = .ok files ∧
        Generation.outcomes w.tree files = .ok os := by
  unfold readOutcomes
  refine .get_bind (.orFail_bind (fun files hfiles => ?_) fun e _ => ⟨rfl, nofun⟩)
  refine .silent_bind (isSilent_debug o _) fun w₁ h₁ => ?_
  refine .orFail_bind (fun os hos => ?_) fun e _ => ⟨h₁, nofun⟩
  refine .silent_bind (isSilent_debug o _) fun w₂ h₂ => ?_
  refine ⟨h₂.trans h₁, fun os' hos' => ?_⟩
  cases hos'
  exact ⟨files, hfiles, hos⟩

theorem leads_check (o : Options) (outputs : List Output) (w : World) :
    Leads (check o outputs) w fun r t => t = w.tree ∧ ∀ c, r = .ok c →
      ∃ stale, Generation.check w.tree outputs = .ok stale ∧ c = if stale = [] then 0 else 1 := by
  unfold check
  refine .get_bind (.orFail_bind (fun stale hstale => ?_) fun e _ => ⟨rfl, nofun⟩)
  refine .silent_bind (isSilent_print _) fun w₁ h₁ => ?_
  refine .silent_bind (isSilent_debug o _) fun w₂ h₂ => ?_
  refine ⟨h₂.trans h₁, fun c hc => ⟨stale, hstale, ?_⟩⟩
  cases hc
  rfl

theorem leads_write (o : Options) (dir : String) (outputs : List Output) (w : World) :
    Leads (write o dir outputs) w fun r t =>
      t = (Generation.write w.tree outputs).1 ∧ ∀ c, r = .ok c → c = 0 := by
  unfold write
  refine .get_bind ?_
  obtain ⟨t, failure⟩ := Generation.write w.tree outputs
  cases failure with
  | some cause => exact ⟨rfl, nofun⟩
  | none =>
    refine .modify_bind (.silent_bind (isSilent_debug o _) fun w₁ h₁ => ?_)
    refine .silent_bind (isSilent_print _) fun w₂ h₂ => ?_
    refine ⟨h₂.trans h₁, fun c hc => ?_⟩
    cases hc
    rfl

end NodeAtlas.Program
