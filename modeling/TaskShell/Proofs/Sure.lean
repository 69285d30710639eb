import TaskShell.Proofs.Action

/-!
# Actions that never fail

An action is *sure* if it never fails (`Sure`). Builtins are sure only because a
line hands them nothing but texts (`texts_argsOf`, `sure_builtin`).
-/

namespace TaskShell.Act

variable {σ α β : Type}

def Sure (act : Doing σ α) : Prop := ∀ s, ∃ a t, act s = (.ok a, t)

theorem sure_pure (a : α) : Sure (pure a : Doing σ α) := fun s => ⟨a, s, rfl⟩

theorem sure_modify (g : σ → σ) :
    Sure (modify g : Doing σ PUnit) := fun s => ⟨⟨⟩, g s, rfl⟩

theorem Sure.bind {x : Doing σ α} {f : α → Doing σ β} (hx : Sure x)
    (hf : ∀ a, Sure (f a)) : Sure (x >>= f) := by
  intro s
  obtain ⟨a, t, h⟩ := hx s
  rw [bind_of_ok h]
  exact hf a t

theorem sure_get_bind {f : σ → Doing σ β} (hf : ∀ s, Sure (f s)) :
    Sure (get >>= f) := fun s => hf s s

theorem sure_attempt (act : Doing σ α) :
    Sure (attempt act) := fun s => ⟨(act s).1, (act s).2, rfl⟩

theorem sure_orElse {act : Doing σ α} {handler : Fault → Doing σ α}
    (hh : ∀ f, Sure (handler f)) :
    Sure (orElse act handler) := by
  intro s
  rcases ha : act s with ⟨r, t⟩
  cases r with
  | ok a => exact ⟨a, t, orElse_of_ok ha⟩
  | error e =>
    rw [orElse_of_error ha]
    exact hh e t

theorem sure_lift {job : Job α} (h : Sure job) : Sure (liftM job : Act α) := by
  intro w
  obtain ⟨a, t, hj⟩ := h w.toSite
  exact ⟨a, { w with toSite := t }, by rw [lift_apply, hj]⟩

theorem Prints.sure {act : Act Unit} (h : Prints act) : Sure act := by
  intro w
  obtain ⟨out, hw⟩ := h w
  exact ⟨⟨⟩, _, hw⟩

end TaskShell.Act

namespace TaskShell.Shell

open Act List

variable {v : Value}

/-! ## Builtins -/

/-- Arguments that are all texts. -/
def Texts (args : Args) : Prop := ∀ arg ∈ args, ∃ s, arg.2 = .text s

theorem texts_set {args : Args} (h : Texts args) (name s : String) :
    Texts (args.set name (.text s)) := by
  induction args with
  | nil =>
    intro arg harg
    rw [mem_singleton.1 harg]
    exact ⟨s, rfl⟩
  | cons entry rest ih =>
    obtain ⟨k, old⟩ := entry
    have hrest : Texts rest := fun arg harg => h arg (mem_cons_of_mem _ harg)
    intro arg harg
    rw [Args.set] at harg
    split at harg
    · rcases mem_cons.1 harg with rfl | hm
      · exact ⟨s, rfl⟩
      · exact hrest arg hm
    · rcases mem_cons.1 harg with rfl | hm
      · exact h _ (by simp)
      · exact ih hrest arg hm

private theorem texts_collect (words : List String) :
    ∀ (args : Args) (found : List String), Texts args →
    Texts (collect words args found).1 := by
  intro args found
  fun_induction collect words args found with
  | case1 args found => exact id
  | case2 args found word => exact id
  | case3 args found word value rest hf ih =>
    exact fun h => ih (texts_set h _ _)
  | case4 args found word value rest hf ih => exact ih

/-- The arguments that `argsOf` gives are all texts. -/
theorem texts_argsOf (parts : List String) : Texts (argsOf parts) := by
  have hflags : Texts (collect (parts.drop 1) [] []).1 :=
    texts_collect _ _ _ (by intro arg harg; cases harg)
  unfold argsOf
  dsimp only
  split
  · exact hflags
  · exact texts_set hflags _ _

section Texts

variable {args : Args} (h : Texts args)
include h

theorem Texts.get? {name : String} (hv : args.get? name = some v) :
    ∃ s, v = .text s :=
  h (name, v) (lookup_eq_some_iff.1 hv |>.elim fun _ hl =>
    hl.elim fun _ hl => by simp [hl.1])

theorem Texts.getD (name s : String) :
    ∃ t, args.getD name (.text s) = .text t := by
  unfold Args.getD
  cases hv : args.get? name with
  | none => exact ⟨s, rfl⟩
  | some v => exact h.get? hv

theorem Texts.givenOr (name s : String) :
    ∃ t, args.givenOr name (.text s) = .text t := by
  unfold Args.givenOr
  split
  · next v hv =>
    split
    · exact h.get? hv
    · exact ⟨s, rfl⟩
  · exact ⟨s, rfl⟩

end Texts

theorem sure_needText (operation : String) (h : ∃ s, v = .text s) :
    Sure (needText operation v) := by
  obtain ⟨s, rfl⟩ := h
  exact sure_pure s

theorem sure_expandValue (h : ∃ s, v = .text s) : Sure (expandValue v) := by
  obtain ⟨s, rfl⟩ := h
  unfold expandValue
  split
  · exact sure_pure _
  · exact sure_get_bind fun _ => sure_pure _

theorem sure_orMessage {σ : Type} (lead : String) (act : Doing σ String) :
    Sure (orMessage lead act) :=
  sure_orElse fun _ => sure_pure _

theorem sure_aliasBuiltin (args : Args) : Sure (aliasBuiltin args) := by
  unfold aliasBuiltin
  dsimp only
  split
  · exact sure_pure _
  · exact (sure_orMessage _ _).bind fun _ => sure_pure _

theorem sure_unaliasBuiltin {args : Args} (h : Texts args) :
    Sure (unaliasBuiltin args) := by
  refine Sure.bind (sure_lift (sure_needText _ (h.givenOr _ _))) fun s => ?_
  dsimp only
  split
  · exact sure_pure _
  · exact (sure_modify _).bind fun _ => sure_pure _

theorem sure_aliasesBuiltin : Sure aliasesBuiltin := by
  refine sure_get_bind fun w => ?_
  dsimp only
  split
  · exact sure_pure _
  · exact sure_pure _

theorem sure_setBuiltin {args : Args} (h : Texts args) :
    Sure (setBuiltin args) := by
  refine (sure_needText _ (h.givenOr _ _)).bind fun s => ?_
  split
  · exact sure_pure _
  · exact (sure_orMessage _ _).bind fun _ => sure_pure _

private theorem sure_getBuiltin {args : Args} (h : Texts args) :
    Sure (getBuiltin args) := by
  unfold getBuiltin
  dsimp only
  split
  · exact sure_pure _
  · exact (sure_needText _ (h.getD _ _)).bind fun _ =>
      sure_get_bind fun _ => sure_pure _

/-- **A `Builtin` that is given texts never fails.** -/
theorem sure_builtin (b : Builtin) {args : Args} (h : Texts args) :
    Sure (b.run args) := by
  cases b with
  | cd => exact sure_lift (sure_get_bind fun _ =>
      (sure_orMessage _ _).bind fun _ => sure_pure _)
  | pwd => exact sure_lift ((sure_orMessage _ _).bind fun _ => sure_pure _)
  | echo => exact sure_lift (sure_expandValue (h.getD _ _))
  | print => exact sure_lift (sure_expandValue (h.getD _ _))
  | ls => exact sure_lift ((sure_orMessage _ _).bind fun _ => sure_pure _)
  | env => exact sure_lift (sure_get_bind fun _ => sure_pure _)
  | set => exact sure_lift (sure_setBuiltin h)
  | get => exact sure_lift (sure_getBuiltin h)
  | help =>
    exact sure_lift ((sure_needText _ (h.getD _ _)).bind fun _ => sure_pure _)
  | defineAlias => exact sure_aliasBuiltin args
  | unalias => exact sure_unaliasBuiltin h
  | aliases => exact sure_aliasesBuiltin

end TaskShell.Shell
