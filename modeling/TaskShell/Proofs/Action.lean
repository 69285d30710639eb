import TaskShell.Shell.Dispatch

/-!
# Running actions

An action is a function from a state to an outcome and a new state, so every
question about it is a question about its value at a state. This module gives
the values of the few operations that actions are built from; later proofs take
an action apart with them and never open the monad.

The second half is about the world. A *local* action sees and changes no more
than the site and the aliases. That the commands are local needs no proof for
each of them, since a job does not see the rest of the world at all, and the
builtins add the aliases. At the other end are actions that only *print*: they
may look at everything.
-/

namespace TaskShell.Act

variable {σ α β : Type}

/-! ## Values of actions -/

@[simp] theorem pure_apply (a : α) (s : σ) :
    (pure a : Doing σ α) s = (.ok a, s) := rfl

@[simp] theorem modify_apply (g : σ → σ) (s : σ) :
    (modify g : Doing σ PUnit) s = (.ok ⟨⟩, g s) := rfl

@[simp] theorem get_bind_apply (f : σ → Doing σ β) (s : σ) :
    (get >>= f) s = f s s := rfl

@[simp] theorem modify_bind_apply (g : σ → σ) (f : PUnit → Doing σ β) (s : σ) :
    (modify g >>= f) s = f ⟨⟩ (g s) := rfl

@[simp] theorem attempt_apply (act : Doing σ α) (s : σ) :
    attempt act s = (.ok (act s).1, (act s).2) := rfl

@[simp] theorem attempt_bind_apply (act : Doing σ α)
    (f : Except Fault α → Doing σ β) (s : σ) :
    (attempt act >>= f) s = f (act s).1 (act s).2 := rfl

@[simp] theorem lift_apply (job : Job α) (w : World) :
    (liftM job : Act α) w =
    ((job w.toSite).1, { w with toSite := (job w.toSite).2 }) := rfl

theorem lift_of_ok {job : Job α} {w : World} {a : α}
    (h : job w.toSite = (.ok a, w.toSite)) :
    (liftM job : Act α) w = (.ok a, w) := by
  rw [lift_apply, h]

theorem isTruthy_text {t : String} (h : t ≠ "") :
    (Value.text t).isTruthy = true := by simpa [Value.isTruthy] using h

theorem bind_of_ok {x : Doing σ α} {f : α → Doing σ β} {s t : σ} {a : α}
    (h : x s = (.ok a, t)) :
    (x >>= f) s = f a t := by
  show ExceptT.bindCont f (x s).1 (x s).2 = f a t
  rw [h]
  rfl

theorem bind_of_error {x : Doing σ α} {f : α → Doing σ β} {s t : σ} {e : Fault}
    (h : x s = (.error e, t)) : (x >>= f) s = (.error e, t) := by
  show ExceptT.bindCont f (x s).1 (x s).2 = (.error e, t)
  rw [h]
  rfl

/-- `x >>= f` either goes on with the value of `x` or ends with its fault. -/
theorem bind_cases (x : Doing σ α) (f : α → Doing σ β) (s : σ) :
    (∃ a t, x s = (.ok a, t) ∧ (x >>= f) s = f a t) ∨
      ∃ e t, x s = (.error e, t) ∧ (x >>= f) s = (.error e, t) := by
  rcases h : x s with ⟨r, t⟩
  cases r with
  | ok a => exact .inl ⟨a, t, rfl, bind_of_ok h⟩
  | error e => exact .inr ⟨e, t, rfl, bind_of_error h⟩

theorem ok_of_bind {x : Doing σ α} {f : α → Doing σ β} {s t : σ} {b : β}
    (h : (x >>= f) s = (.ok b, t)) :
    ∃ a u, x s = (.ok a, u) ∧ f a u = (.ok b, t) := by
  rcases bind_cases x f s with ⟨a, u, hx, hf⟩ | ⟨e, u, -, hf⟩
  · exact ⟨a, u, hx, hf ▸ h⟩
  · rw [hf] at h
    cases h

theorem ok_of_pure {a b : α} {s t : σ}
    (h : (pure a : Doing σ α) s = (.ok b, t)) : a = b ∧ s = t :=
  ⟨Except.ok.inj (Prod.mk.inj h).1, (Prod.mk.inj h).2⟩

theorem ok_of_lift {job : Job α} {w u : World} {a : α}
    (h : (liftM job : Act α) w = (.ok a, u)) :
    job w.toSite = (.ok a, u.toSite) ∧ u = { w with toSite := u.toSite } := by
  rw [lift_apply] at h
  obtain ⟨hvalue, rfl⟩ := Prod.mk.inj h
  exact ⟨Prod.ext hvalue rfl, rfl⟩

theorem bind_pure_snd (x : Doing σ α) (g : α → β) (s : σ) :
    ((x >>= fun a => pure (g a)) s).2 = (x s).2 := by
  rcases bind_cases x (fun a => pure (g a)) s with ⟨a, t, ht, h⟩ | ⟨e, t, ht, h⟩
  · rw [h, ht]
    rfl
  · rw [h, ht]

theorem orElse_of_ok {act : Doing σ α} {handler : Fault → Doing σ α} {s t : σ}
    {a : α} (h : act s = (.ok a, t)) : orElse act handler s = (.ok a, t) := by
  simp only [orElse, tryCatch, tryCatchThe, MonadExceptOf.tryCatch,
    ExceptT.tryCatch, ExceptT.mk, bind, StateT.bind]
  rw [h]
  rfl

theorem orElse_of_error {act : Doing σ α} {handler : Fault → Doing σ α}
    {s t : σ} {e : Fault} (h : act s = (.error e, t)) :
    orElse act handler s = handler e t := by
  simp only [orElse, tryCatch, tryCatchThe, MonadExceptOf.tryCatch,
    ExceptT.tryCatch, ExceptT.mk, bind, StateT.bind]
  rw [h]

theorem bind_of_eq {x y : Doing σ α} {s : σ} (h : x s = y s)
    (f : α → Doing σ β) : (x >>= f) s = (y >>= f) s := by
  rcases hy : y s with ⟨e | a, t⟩
  · rw [bind_of_error (h.trans hy), bind_of_error hy]
  · rw [bind_of_ok (h.trans hy), bind_of_ok hy]

/-- `bind` sees of its second action only what comes after the values of the
first. -/
theorem bind_congr_of_ok {x : Doing σ α} {f g : α → Doing σ β} {s : σ}
    (h : ∀ a t, x s = (.ok a, t) → f a t = g a t) :
    (x >>= f) s = (x >>= g) s := by
  rcases hx : x s with ⟨e | a, t⟩
  · rw [bind_of_error hx, bind_of_error hx]
  · rw [bind_of_ok hx, bind_of_ok hx, h a t hx]

theorem bind_snd {x : Doing σ α} {f : α → Doing σ β} {s : σ} (hx : (x s).2 = s)
    (hf : ∀ a, (f a s).2 = s) :
    ((x >>= f) s).2 = s := by
  rcases bind_cases x f s with ⟨a, t, hok, hbind⟩ | ⟨e, t, herror, hbind⟩
  · rw [hok] at hx
    obtain rfl : t = s := hx
    rw [hbind, hf a]
  · rw [herror] at hx
    rw [hbind]
    exact hx

theorem orElse_of_eq {x y : Doing σ α} {s : σ} (h : x s = y s)
    (handler : Fault → Doing σ α) :
    orElse x handler s = orElse y handler s := by
  rcases hy : y s with ⟨e | a, t⟩
  · rw [orElse_of_error (h.trans hy), orElse_of_error hy]
  · rw [orElse_of_ok (h.trans hy), orElse_of_ok hy]

/-! ## Local actions -/

/-- The world `u` with the site and the aliases of `w`. -/
def among (w u : World) : World :=
  { u with toSite := w.toSite, aliases := w.aliases }

/-- An action that neither sees nor changes more of the world than the site and
the aliases: it does the same `among` other things and leaves them as they
are. -/
def Local (act : Act α) : Prop :=
  ∀ w u, act (among w u) = ((act w).1, among (act w).2 u)

/-- What a `Local` action leaves behind is the world it started from, with
another site and other aliases. -/
theorem Local.world {act : Act α} (h : Local act) (w : World) :
    (act w).2 = among (act w).2 w :=
  congrArg Prod.snd (h w w)

theorem Local.calls {act : Act α} (h : Local act) (w : World) :
    (act w).2.calls = w.calls := by
  rw [h.world]
  rfl

theorem local_pure (a : α) : Local (pure a : Act α) := fun _ _ => rfl

theorem local_fail (f : Fault) : Local (fail f : Act α) := fun _ _ => rfl

theorem local_lift (job : Job α) : Local (liftM job : Act α) := fun _ _ => rfl

theorem local_setAliases (g : List (String × String) → List (String × String)) :
    Local (modify fun w => { w with aliases := g w.aliases }) := fun _ _ => rfl

theorem local_get_bind {f : World → Act β} (hf : ∀ w, Local (f w))
    (hs : ∀ w u, f (among w u) = f w) :
    Local (get >>= f) := by
  intro w u
  show f (among w u) (among w u) = ((f w w).1, among (f w w).2 u)
  rw [hs, hf w w u]

theorem Local.bind {x : Act α} {f : α → Act β} (hx : Local x)
    (hf : ∀ a, Local (f a)) : Local (x >>= f) := by
  intro w u
  rcases bind_cases x f w with ⟨a, t, ht, h⟩ | ⟨e, t, ht, h⟩
  · have hu : x (among w u) = (.ok a, among t u) := by rw [hx w u, ht]
    rw [bind_of_ok hu, h, hf a t u]
  · have hu : x (among w u) = (.error e, among t u) := by rw [hx w u, ht]
    rw [bind_of_error hu, h]

theorem Local.orElse {act : Act α} {handler : Fault → Act α} (h : Local act)
    (hh : ∀ f, Local (handler f)) :
    Local (orElse act handler) := by
  intro w u
  rcases ha : act w with ⟨r, t⟩
  cases r with
  | ok a =>
    have hu : act (among w u) = (.ok a, among t u) := by rw [h w u, ha]
    rw [orElse_of_ok hu, orElse_of_ok ha]
  | error e =>
    have hu : act (among w u) = (.error e, among t u) := by rw [h w u, ha]
    rw [orElse_of_error hu, orElse_of_error ha, hh e t u]

theorem local_aliasBuiltin (args : Args) : Local (Shell.aliasBuiltin args) := by
  unfold Shell.aliasBuiltin
  dsimp only
  split
  · exact local_pure _
  · refine Local.bind (Local.orElse (Local.bind (local_lift _) ?_) fun _ =>
      local_pure _) fun _ => local_pure _
    rintro ⟨name, expansion⟩
    dsimp only
    split
    · exact local_pure _
    · exact (local_setAliases fun old => Shell.setAlias old name expansion).bind
        fun _ => local_pure _

theorem local_unaliasBuiltin (args : Args) :
    Local (Shell.unaliasBuiltin args) := by
  refine Local.bind (local_lift _) ?_
  intro s
  dsimp only
  split
  · exact local_pure _
  · exact (local_setAliases fun old => Env.unset old (Text.trim s)).bind
      fun _ => local_pure _

private theorem local_aliasesBuiltin : Local Shell.aliasesBuiltin := by
  refine local_get_bind (fun w => ?_) fun _ _ => rfl
  dsimp only
  split
  · exact local_pure _
  · exact local_pure _

/-- Every `Builtin` sees and changes no more than the site and the aliases. -/
theorem builtin_local (b : Shell.Builtin) (args : Args) :
    Local (b.run args) := by
  cases b with
  | defineAlias => exact local_aliasBuiltin args
  | unalias => exact local_unaliasBuiltin args
  | aliases => exact local_aliasesBuiltin
  | _ => exact local_lift _

/-! ## Actions that only print -/

/-- An action that does no more than print on the standard output. -/
def Prints (act : Act Unit) : Prop :=
  ∀ w, ∃ out, act w = (.ok ⟨⟩, { w with out := out })

theorem prints_pure : Prints (pure ⟨⟩) := fun w => ⟨w.out, rfl⟩

theorem prints_printLine (s : String) :
    Prints (Act.printLine s) := fun _ => ⟨_, rfl⟩

theorem Prints.bind {x y : Act Unit} (hx : Prints x) (hy : Prints y) :
    Prints (x >>= fun _ => y) := by
  intro w
  obtain ⟨out, h⟩ := hx w
  obtain ⟨out', h'⟩ := hy { w with out := out }
  exact ⟨out', by rw [bind_of_ok h, h']⟩

/-- Two actions that agree wherever the world differs in its output alone agree
after an action that `Prints`. -/
theorem Prints.bind_congr {x : Act Unit} (hx : Prints x) {f g : Act β}
    {w : World} (h : ∀ u : World, u.toSite = w.toSite → f u = g u) :
    (x >>= fun _ => f) w = (x >>= fun _ => g) w := by
  refine bind_congr_of_ok fun _ u hu => h u ?_
  obtain ⟨out, hout⟩ := hx w
  rw [hout] at hu
  cases hu
  rfl

theorem prints_get_bind {f : World → Act Unit} (hf : ∀ w, Prints (f w)) :
    Prints (get >>= f) :=
  fun w => hf w w

theorem prints_log (message : String) :
    Prints (log message) := prints_get_bind fun _ _ => ⟨_, rfl⟩

theorem prints_logDebug (message : String) : Prints (logDebug message) := by
  refine prints_get_bind fun w => ?_
  split
  · exact prints_log message
  · exact prints_pure

/-- One round of a `for` loop. -/
theorem forIn_cons {γ : Type} (a : γ) (rest : List γ) (f : γ → Act Unit) :
    (forIn (a :: rest) PUnit.unit fun a _ =>
      do f a; pure (ForInStep.yield PUnit.unit)) =
      (f a >>= fun _ => forIn rest PUnit.unit fun a _ =>
        do f a; pure (ForInStep.yield PUnit.unit)) := by
  simp only [List.forIn_cons, bind_assoc, pure_bind]

private theorem prints_forIn {γ : Type} (items : List γ) {f : γ → Act Unit}
    (hf : ∀ a, Prints (f a)) :
    Prints (forIn items PUnit.unit fun a _ =>
      do f a; pure (ForInStep.yield PUnit.unit)) := by
  induction items with
  | nil => exact prints_pure
  | cons a rest ih =>
    rw [forIn_cons]
    exact (hf a).bind ih

theorem prints_showResult (v : Value) (label : String) (heading : Bool) :
    Prints (Shell.showResult v label heading) := by
  unfold Shell.showResult
  split
  · exact prints_pure
  · refine prints_get_bind fun w => ?_
    split
    · exact prints_printLine _
    · split
      · exact (prints_log _).bind (prints_log _)
      · exact (prints_forIn _ fun l => prints_log _).bind prints_pure

end TaskShell.Act

namespace TaskShell.Shell

variable {name : String}

/-! ## Names of builtins -/

private theorem isSome_ite {α : Type} (c : Bool) (a : α) (rest : Option α) :
    (if c then some a else rest).isSome = (c || rest.isSome) := by
  cases c
  · rfl
  · rfl

/-- **The list of names and the cascade agree**: a name is handled exactly if it
is one of `builtinNames`. -/
theorem isSome_ofName? (name : String) :
    (Builtin.ofName? name).isSome = builtinNames.contains name := by
  unfold Builtin.ofName?
  simp only [isSome_ite, Option.isSome_none, builtinNames, List.contains_cons,
    List.contains_nil]
  ac_rfl

theorem isKnown_eq (name : String) :
    isKnown name =
      ((Command.ofName? name).isSome || (Builtin.ofName? name).isSome) := by
  rw [isKnown, isSome_ofName?]

theorem callBuiltin_of_some {b : Builtin} (h : Builtin.ofName? name = some b)
    (args : Args) :
    callBuiltin name args = runBuiltin name b args >>=
      fun v => pure (some v) := by
  unfold callBuiltin
  rw [h]

theorem callBuiltin_of_none (h : Builtin.ofName? name = none) (args : Args) :
    callBuiltin name args = pure none := by
  unfold callBuiltin
  rw [h]

theorem runNamed_of_some {b : Builtin} (h : Builtin.ofName? name = some b)
    (args : Args) :
    runNamed name args = runBuiltin name b args >>= fun v => pure (some v) := by
  have hname : builtinNames.contains name = true := by
    rw [← isSome_ofName?, h]; rfl
  rw [← callBuiltin_of_some h, runNamed, if_pos hname]

theorem runNamed_of_command {c : Command} (h : Builtin.ofName? name = none)
    (hc : Command.ofName? name = some c) (args : Args) :
    runNamed name args = runCommand name c (.record args) >>=
      fun v => pure (some v) := by
  have hname : ¬ builtinNames.contains name = true := by
    rw [← isSome_ofName?, h]; decide
  rw [runNamed, if_neg hname, hc]

theorem runNamed_of_none (h : Builtin.ofName? name = none)
    (hc : Command.ofName? name = none) (args : Args) :
    runNamed name args = pure none := by
  have hname : ¬ builtinNames.contains name = true := by
    rw [← isSome_ofName?, h]; decide
  rw [runNamed, if_neg hname, hc]

end TaskShell.Shell
