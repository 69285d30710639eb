import TaskShell.Proofs.Directories
import TaskShell.Proofs.Failure

/-!
# Builtins and commands of the same name

Four names stand both for a builtin and for a command, and which of them a line
reaches depends only on whether it is run by the shell or by a worker. Two of
the pairs do the same. The other two take different paths from the same
arguments: the builtin expands what is left after the default is chosen, and the
command chooses the default after expanding. So the pairs agree just when the
two paths come to the same.
-/

namespace TaskShell.Shell

open Act Text Files List

/-! ## Arguments -/

/-- The text of an argument, or else `fallback`. -/
def textOf (args : Args) (name fallback : String) : String :=
  (args.getD name (.text fallback)).display

theorem text_or (t fallback : String) :
    (if (Value.text t).isTruthy then Value.text t else Value.text fallback) =
    .text (if t.isEmpty then fallback else t) := by
  by_cases ht : t = ""
  · rw [ht]
    rfl
  · have hempty : ¬ t.isEmpty = true := mt String.isEmpty_iff.1 ht
    have htruthy : (Value.text t).isTruthy = true := isTruthy_text ht
    rw [if_neg hempty, if_pos htruthy]

section Texts

variable {args : Args} (h : Texts args)
include h

theorem Texts.getD_eq (name fallback : String) :
    args.getD name (.text fallback) = .text (textOf args name fallback) := by
  obtain ⟨t, ht⟩ := h.getD name fallback
  rw [textOf, ht]
  rfl

theorem Texts.givenOr_eq (name fallback : String) :
    args.givenOr name (.text fallback) =
    .text (if (textOf args name "").isEmpty then fallback
      else textOf args name "") := by
  unfold Args.givenOr
  cases hv : args.get? name with
  | none =>
    have htext : textOf args name "" = "" := by
      rw [textOf, Args.getD, hv]
      rfl
    rw [htext]
    rfl
  | some v =>
    obtain ⟨t, rfl⟩ := h.get? hv
    have htext : textOf args name "" = t := by
      rw [textOf, Args.getD, hv]
      rfl
    rw [htext]
    exact text_or t fallback

end Texts

theorem expand_empty (env : Env) : expand env "" = "" := rfl

theorem expandValue_text (t : String) (s : Site) :
    expandValue (.text t) s = (.ok (.text (expand s.env t)), s) := by
  by_cases ht : t = ""
  · rw [ht]
    rfl
  · have htruthy : (Value.text t).isTruthy = true := isTruthy_text ht
    unfold expandValue
    rw [htruthy]
    rfl

/-- The text of an outcome: that of the failure stands after a lead. -/
def said (lead : String) : Except Fault String → String
  | .ok t => t
  | .error f => lead ++ f.message

theorem orMessage_of_eq {σ : Type} (lead : String) {act : Doing σ String}
    {s t : σ} {outcome : Except Fault String} (h : act s = (outcome, t)) :
    orMessage lead act s = (.ok (said lead outcome), t) := by
  cases outcome with
  | ok text => exact orElse_of_ok h
  | error f => exact orElse_of_error h

/-! ## Listing a directory -/

/-- The path that the builtin lists: it is expanded after the default is
chosen. -/
def listedByBuiltin (env : Env) (args : Args) : String :=
  expand env (if (textOf args "str" "").isEmpty then textOf args "path" "."
    else textOf args "str" "")

/-- The path that the command lists: the default is chosen after expanding, and
stays as it is. -/
def listedByCommand (env : Env) (args : Args) : String :=
  let given := expand env (textOf args "str" "")
  if given.isEmpty then textOf args "path" "." else given

def listText (s : Site) (p : String) : String :=
  said "ls failed: " ((listDir p s).1.map joinLines)

def listing (v : Value) : Job String := do
  let p ← match v with
    | .null => pure "."
    | v => pathFor "listdir" v
  let names ← listDir p
  pure (joinLines names)

theorem listing_text (p : String) (s : Site) :
    listing (.text p) s = ((listDir p s).1.map joinLines, s) := by
  have hrun : listDir p s = ((listDir p s).1, s) :=
    Prod.ext rfl (listDir_snd s p)
  have hlisting : listing (.text p) s =
      (listDir p >>= fun names => pure (joinLines names)) s := rfl
  rw [hlisting]
  generalize (listDir p s).1 = outcome at hrun ⊢
  cases outcome with
  | ok names => exact bind_of_ok hrun
  | error f => exact bind_of_error hrun

section Texts

variable {args : Args} (h : Texts args) (s : Site)
include h

theorem lsBuiltin_apply : lsBuiltin args s =
    (.ok (.text (listText s (listedByBuiltin s.env args))), s) := by
  have hfirst : args.givenOr "str" (args.getD "path" (.text ".")) =
      .text (if (textOf args "str" "").isEmpty then textOf args "path" "."
        else textOf args "str" "") := by
    rw [h.getD_eq, h.givenOr_eq]
  have hlisted : (expandValue
    (args.givenOr "str" (args.getD "path" (.text "."))) >>= listing) s =
      ((listDir (listedByBuiltin s.env args) s).1.map joinLines, s) := by
    rw [hfirst, bind_of_ok (expandValue_text _ s), listing_text,
      listedByBuiltin]
  exact bind_of_ok (orMessage_of_eq "ls failed: " hlisted)

theorem lsCommand_apply : lsCommand args s =
    (.ok (.text (listText s (listedByCommand s.env args))), s) := by
  have hgiven : expandValue (textArg args) s =
      (.ok (.text (expand s.env (textOf args "str" ""))), s) := by
    rw [textArg, h.getD_eq, expandValue_text]
  have hchosen :
      (if (Value.text (expand s.env (textOf args "str" ""))).isTruthy then
      Value.text (expand s.env (textOf args "str" ""))
        else args.getD "path" (.text ".")) =
      .text (listedByCommand s.env args) := by
    rw [h.getD_eq, text_or, listedByCommand]
  unfold lsCommand
  rw [bind_of_ok hgiven, hchosen]
  exact bind_of_ok (orMessage_of_eq "ls failed: " (listing_text _ s))

end Texts

/-! ## Changing the directory -/

/-- What the builtin is asked for: the text, or else the path, or else home. -/
def chosen (s : Site) (args : Args) : String :=
  let given := if (textOf args "str" "").isEmpty then textOf args "path" ""
    else textOf args "str" ""
  if given.isEmpty then s.expandHome "~" else given

def enteredByBuiltin (s : Site) (args : Args) : String :=
  expand s.env (chosen s args)

def wished (s : Site) (args : Args) : String :=
  Path.expandVariables s.env
    (s.expandHome (expand s.env (textOf args "str" "")))

/-- The path that the command changes to: home if `wished` is empty, and the
absolute normal form otherwise. -/
def enteredByCommand (s : Site) (args : Args) : String :=
  if (wished s args).isEmpty then s.expandHome "~"
  else Path.absoluteIn (Disk.placeText s.seat.place) (wished s args)

def enterText (d : Except Fault Place) : String :=
  said "cd failed: " (d.map Disk.placeText)

theorem entering_apply {s : Site} (hseated : s.seat.removed = false)
    (p : String) :
    (do changeDir p; workingDir) s =
      ((destination s p).map Disk.placeText, moved s (destination s p)) := by
  have hchange := changeDir_eq hseated p
  cases hd : destination s p with
  | error f =>
    rw [hd] at hchange
    exact bind_of_error hchange
  | ok q =>
    rw [hd] at hchange
    exact bind_of_ok hchange

def enter (p : String) : Job Value := do
  let s ← orMessage "cd failed: " do
    changeDir p
    workingDir
  pure (.text s)

theorem enter_apply {s : Site} (hseated : s.seat.removed = false) (p : String) :
    enter p s =
      (.ok (.text (enterText (destination s p))), moved s (destination s p)) :=
  bind_of_ok (orMessage_of_eq "cd failed: " (entering_apply hseated p))

theorem enter_disk (s : Site) (p : String) : (enter p s).2.disk = s.disk := by
  have hkept := changeDir_disk s p
  unfold enter
  rw [bind_pure_snd]
  cases hchange : changeDir p s with
  | mk outcome t =>
    rw [hchange] at hkept
    cases outcome with
    | error f =>
      rw [orMessage_of_eq "cd failed: " (bind_of_error hchange)]
      exact hkept
    | ok _ =>
      have hrun : (do changeDir p; workingDir : Job String) s =
          ((workingDir t).1, t) := by
        rw [bind_of_ok hchange]
        exact Prod.ext rfl (workingDir_snd t)
      rw [orMessage_of_eq "cd failed: " hrun]
      exact hkept

def wantsDir (args : Args) : Bool :=
  ["mkdir", "create", "p"].any fun flag => saysYes (args.getD flag .null)

/-- Changes to a path that is there, or that can and may be made. -/
def enterOrMake (wanted : Bool) (w : Site) (target : String) : Job Value :=
  if exist w target then enter target
  else if !wanted then pure (.text s!"cd failed: path not found: {target}")
  else do
    let made ← Act.attempt (makeDirs target)
    match made with
    | .ok _ => enter target
    | .error f => pure (.text s!"cd failed creating {target}: {f.message}")

section Texts

variable {args : Args} (h : Texts args) {s : Site}
  (hseated : s.seat.removed = false)
include h hseated

theorem cdBuiltin_apply : cdBuiltin args s =
    (.ok (.text (enterText (destination s (enteredByBuiltin s args)))),
      moved s (destination s (enteredByBuiltin s args))) := by
  have hchosen :
      (if (args.givenOr "str" (args.getD "path" (.text ""))).isTruthy then
      args.givenOr "str" (args.getD "path" (.text ""))
        else .text (s.expandHome "~")) =
      .text (chosen s args) := by
    rw [h.getD_eq, h.givenOr_eq, text_or, chosen]
  have hentered := entering_apply hseated (enteredByBuiltin s args)
  unfold cdBuiltin
  rw [get_bind_apply, hchosen]
  exact bind_of_ok (orMessage_of_eq "cd failed: "
    ((bind_of_ok (expandValue_text _ s)).trans hentered))

omit hseated in
private theorem expandValue_str : expandValue (args.givenOr "str" (.text ""))
    s = (.ok (.text (expand s.env (textOf args "str" ""))), s) := by
  have hstr : (if (textOf args "str" "").isEmpty then ""
      else textOf args "str" "") = textOf args "str" "" := by
    split
    · next hempty => exact (String.isEmpty_iff.1 hempty).symm
    · rfl
  rw [h.givenOr_eq, hstr, expandValue_text]

theorem cdCommand_eq : cdCommand args s =
    if (wished s args).isEmpty then enter (enteredByCommand s args) s
    else enterOrMake (wantsDir args) s (enteredByCommand s args) s := by
  unfold cdCommand enteredByCommand
  rw [bind_of_ok (expandValue_str h), get_bind_apply]
  show (if (wished s args).isEmpty then enter (s.expandHome "~")
    else if Path.isAbsolute (wished s args) then
      (pure (Path.normalize (wished s args)) : Job String) >>=
        enterOrMake (wantsDir args) s
    else workingDir >>= fun here =>
      (pure (Path.normalize (Path.join here (wished s args))) : Job String) >>=
        enterOrMake (wantsDir args) s) s = _
  split
  · rfl
  · unfold Path.absoluteIn
    split
    · next habsolute =>
      have hjoin : Path.join (Disk.placeText s.seat.place) (wished s args) =
          wished s args := by
        unfold Path.join
        rw [if_pos habsolute]
      rw [hjoin, pure_bind]
    · rw [bind_of_ok (workingDir_of_seated hseated), pure_bind]

/-- `cdCommand` changes to a path that is there, and home if it is asked for
none. -/
theorem cdCommand_of_exist
    (hexist : (wished s args).isEmpty = false →
      exist s (enteredByCommand s args) = true) : cdCommand args s =
    (.ok (.text (enterText (destination s (enteredByCommand s args)))),
      moved s (destination s (enteredByCommand s args))) := by
  rw [cdCommand_eq h hseated]
  split
  · exact enter_apply hseated _
  · next hwished =>
    unfold enterOrMake
    rw [if_pos (hexist (Bool.eq_false_iff.2 hwished))]
    exact enter_apply hseated _

/-- If there is nothing at the path that `cdCommand` changes to, it says so in
its own words, or something is made. -/
theorem cdCommand_of_not_exist (hroot : s.disk.isDir [] = true)
    (hwished : (wished s args).isEmpty = false)
    (hexist : exist s (enteredByCommand s args) = false) {t : String} {u : Site}
    (hrun : cdCommand args s = (.ok (.text t), u)) :
    (∃ rest, t = "cd failed: path not found: " ++ rest) ∨
      (∃ rest, t = "cd failed creating " ++ rest) ∨ u.disk ≠ s.disk := by
  have htarget : enteredByCommand s args =
      Path.absoluteIn (Disk.placeText s.seat.place) (wished s args) := by
    rw [enteredByCommand, hwished, if_neg Bool.false_ne_true]
  rw [cdCommand_eq h hseated, hwished, if_neg Bool.false_ne_true] at hrun
  unfold enterOrMake at hrun
  rw [hexist, if_neg Bool.false_ne_true] at hrun
  split at hrun
  · obtain ⟨hvalue, -⟩ := ok_of_pure hrun
    exact .inl ⟨enteredByCommand s args, (Value.text.inj hvalue).symm⟩
  · rw [attempt_bind_apply] at hrun
    cases hmade : makeDirs (enteredByCommand s args) s with
    | mk outcome s₁ =>
      rw [hmade] at hrun
      cases outcome with
      | error f =>
        obtain ⟨hvalue, -⟩ := ok_of_pure hrun
        refine .inr (.inl ⟨enteredByCommand s args ++ ": " ++ f.message, ?_⟩)
        rw [← Value.text.inj hvalue, ← String.append_assoc,
          ← String.append_assoc]
        rfl
      | ok _ =>
        dsimp only at hrun
        have hdisk : u.disk = s₁.disk := by
          have hkept := enter_disk s₁ (enteredByCommand s args)
          rw [hrun] at hkept
          exact hkept
        rw [htarget] at hexist hmade
        rw [hdisk]
        exact .inr (.inr
          (makeDirs_changes hroot (Disk.isAbsolute_placeText _) hexist hmade))

end Texts

/-! ## Agreement -/

theorem placeText_ne_failed (q : Place) (message : String) :
    Disk.placeText q ≠ "cd failed: " ++ message := by
  intro h
  have hchars := congrArg String.toList h
  rw [Disk.placeText, String.toList_append, String.toList_append] at hchars
  exact absurd (List.cons.inj hchars).1 (by decide)

/-- The `destination` of a path is known from what a change of the directory
says and leaves behind. -/
theorem destination_of_enterText {s : Site} {p q : String}
    (htext : enterText (destination s p) = enterText (destination s q))
    (hmoved : moved s (destination s p) = moved s (destination s q)) :
    destination s p = destination s q := by
  cases hp : destination s p with
  | ok place =>
    cases hq : destination s q with
    | ok other =>
      rw [hp, hq] at hmoved
      have hseat := congrArg Site.seat hmoved
      exact congrArg Except.ok (congrArg Seat.place hseat)
    | error g =>
      rw [hp, hq] at htext
      exact absurd htext (placeText_ne_failed place g.message)
  | error f =>
    cases hq : destination s q with
    | ok other =>
      rw [hp, hq] at htext
      exact absurd htext.symm (placeText_ne_failed other f.message)
    | error g =>
      rw [hp, hq] at htext
      rw [eq_of_message hp hq (String.append_right_inj _ |>.1 htext)]

private theorem message_ne_of_destination {s : Site} {p rest : String}
    {f : Fault} (h : destination s p = .error f) :
    f.message ≠ "path not found: " ++ rest := by
  intro hmessage
  have hchars := congrArg String.toList hmessage
  rw [String.toList_append] at hchars
  rcases error_of_destination h with rfl | ⟨code, rfl⟩
  · exact absurd (List.cons.inj hchars).1 (by decide)
  · rw [message_refuse, lead] at hchars
    simp only [String.toList_append, append_assoc] at hchars
    exact absurd (List.cons.inj hchars).1 (by decide)

theorem enterText_ne (s : Site) (p rest : String) :
    enterText (destination s p) ≠ "cd failed: path not found: " ++ rest ∧
      enterText (destination s p) ≠ "cd failed creating " ++ rest := by
  have hlead : "cd failed: path not found: " ++ rest =
      "cd failed: " ++ ("path not found: " ++ rest) := by
    rw [← String.append_assoc]
    rfl
  cases hd : destination s p with
  | ok q =>
    refine ⟨?_, fun h => ?_⟩
    · rw [hlead]
      exact placeText_ne_failed q _
    · have hchars := congrArg String.toList h
      rw [enterText, Except.map, said, Disk.placeText, String.toList_append,
        String.toList_append] at hchars
      exact absurd (List.cons.inj hchars).1 (by decide)
  | error f =>
    refine ⟨fun h => ?_, fun h => ?_⟩
    · rw [hlead] at h
      exact message_ne_of_destination hd (String.append_right_inj _ |>.1 h)
    · have hchars := congrArg (fun text : String => text.toList.take 10) h
      simp only [enterText, Except.map, said, String.toList_append] at hchars
      exact absurd hchars (by simp)

section Twins

variable {args : Args} (h : Texts args) {w : World} (hw : w.toSite.Stands)

/-- A builtin and a command agree: both end with the same text and leave the
same behind. -/
def Agree (b : Builtin) (c : Command) (args : Args) (w : World) : Prop :=
  ∃ t u, b.run args w = (.ok (.text t), u) ∧
    (liftM (c.run args) : Act Value) w = (.ok (.text t), u)

/-- The condition under which a builtin and the command of its name agree.
Listing a directory must say the same of the paths that the two list. Changing
it must lead from the paths of the two to the same directory, or be refused for
the same cause, and something must be at the path of the command. -/
def SameCourse (s : Site) (args : Args) : Builtin → Prop
  | .ls =>
    listText s (listedByBuiltin s.env args) =
      listText s (listedByCommand s.env args)
  | .cd =>
    destination s (enteredByBuiltin s args) =
      destination s (enteredByCommand s args) ∧
    ((wished s args).isEmpty = false →
      exist s (enteredByCommand s args) = true)
  | _ => True

/-- Two jobs agree in the world if they do so at its site. -/
theorem lift_agree_iff {first second : Job Value} {t t' : String} {s s' : Site}
    (hfirst : first w.toSite = (.ok (.text t), s))
    (hsecond : second w.toSite = (.ok (.text t'), s')) :
    (∃ t u, (liftM first : Act Value) w = (.ok (.text t), u) ∧
      (liftM second : Act Value) w = (.ok (.text t), u)) ↔
      t = t' ∧ s = s' := by
  constructor
  · rintro ⟨text, u, hone, htwo⟩
    obtain ⟨hone, -⟩ := ok_of_lift hone
    obtain ⟨htwo, -⟩ := ok_of_lift htwo
    rw [hfirst] at hone
    rw [hsecond] at htwo
    cases hone
    cases htwo
    exact ⟨rfl, rfl⟩
  · rintro ⟨rfl, rfl⟩
    refine ⟨t, { w with toSite := s }, ?_, ?_⟩
    · rw [lift_apply, hfirst]
    · rw [lift_apply, hsecond]

include h in
theorem agree_echo : Agree .echo .echo args w := by
  have hrun : echoCommand args w.toSite =
      (.ok (.text (expand w.env (textOf args "str" ""))), w.toSite) := by
    rw [echoCommand, textArg, h.getD_eq, expandValue_text]
  exact (lift_agree_iff hrun hrun).2 ⟨rfl, rfl⟩

include hw in
theorem agree_pwd : Agree .pwd .pwd args w := by
  have hhere := workingDir_of_seated hw.seated
  have hbuiltin : pwdBuiltin w.toSite =
      (.ok (.text (Disk.placeText w.seat.place)), w.toSite) :=
    bind_of_ok (orMessage_of_eq "pwd failed: " hhere)
  have hcommand : pwdCommand w.toSite =
      (.ok (.text (Disk.placeText w.seat.place)), w.toSite) := bind_of_ok hhere
  exact (lift_agree_iff hbuiltin hcommand).2 ⟨rfl, rfl⟩

include h in
theorem agree_ls_iff : Agree .ls .ls args w ↔ SameCourse w.toSite args .ls := by
  refine (lift_agree_iff (lsBuiltin_apply h w.toSite)
    (lsCommand_apply h w.toSite)).trans ?_
  exact ⟨And.left, fun hsame => ⟨hsame, rfl⟩⟩

include h hw in
theorem agree_cd_iff : Agree .cd .cd args w ↔ SameCourse w.toSite args .cd := by
  have hbuiltin := cdBuiltin_apply h hw.seated
  by_cases hexist : (wished w args).isEmpty = false →
    exist w.toSite (enteredByCommand w.toSite args) = true
  · have hcommand := cdCommand_of_exist h hw.seated hexist
    refine (lift_agree_iff hbuiltin hcommand).trans ⟨?_, ?_⟩
    · rintro ⟨htext, hmoved⟩
      exact ⟨destination_of_enterText htext hmoved, hexist⟩
    · rintro ⟨hsame, -⟩
      rw [hsame]
      exact ⟨rfl, rfl⟩
  · constructor
    · rintro ⟨t, u, hone, htwo⟩
      obtain ⟨hone, -⟩ := ok_of_lift hone
      obtain ⟨htwo, -⟩ := ok_of_lift htwo
      rw [hbuiltin, Prod.mk.injEq] at hone
      obtain ⟨htext, hsite⟩ := hone
      have ht : enterText (destination w.toSite (enteredByBuiltin w args)) =
          t := Value.text.inj (Except.ok.inj htext)
      have hdisk : u.disk = w.disk := by
        rw [← hsite]
        exact moved_disk _ _
      obtain ⟨hwished, hmissing⟩ := Classical.not_imp.1 hexist
      rcases cdCommand_of_not_exist h hw.seated hw.root hwished
          (Bool.eq_false_iff.2 hmissing) htwo with
        ⟨rest, hrest⟩ | ⟨rest, hrest⟩ | hchanged
      · exact absurd (ht.trans hrest) (enterText_ne _ _ rest).1
      · exact absurd (ht.trans hrest) (enterText_ne _ _ rest).2
      · exact absurd hdisk hchanged
    · exact fun hsame => absurd hsame.2 hexist

theorem twin_cases {name : String} {b : Builtin} {c : Command}
    (hb : Builtin.ofName? name = some b) (hc : Command.ofName? name = some c) :
    (b = .cd ∧ c = .cd) ∨ (b = .echo ∧ c = .echo) ∨ (b = .ls ∧ c = .ls) ∨
    (b = .pwd ∧ c = .pwd) := by
  have hall : ∀ name ∈ builtinNames,
    ∀ b ∈ Builtin.ofName? name, ∀ c ∈ Command.ofName? name,
      (b, c) ∈ [(Builtin.cd, Command.cd), (.echo, .echo), (.ls, .ls),
        (.pwd, .pwd)] := by
    decide
  have hname : name ∈ builtinNames := by
    rw [← contains_iff_mem, ← isSome_ofName?, hb]
    rfl
  have hpair := hall name hname b hb c hc
  simpa using hpair

/-- Arguments with which a builtin and the command of its name take the same
path. Listing a directory, the text must expand to something, or none must be
given and the path must be the same when it is expanded. Changing it, the text
must expand to a path that leads to a directory, with nothing in it that is
expanded once more, and whose absolute normal form is not too long; or neither a
text nor a path must be given, and home must be the same when it is expanded. -/
def Plain (s : Site) (args : Args) : Builtin → Prop
  | .ls =>
    (expand s.env (textOf args "str" "")).isEmpty = false ∨
      (textOf args "str" "").isEmpty = true ∧
      expand s.env (textOf args "path" ".") = textOf args "path" "."
  | .cd =>
    ((expand s.env (textOf args "str" "")).isEmpty = false ∧
      wished s args = expand s.env (textOf args "str" "") ∧
      (∃ q, destination s (expand s.env (textOf args "str" "")) = .ok q) ∧
      (utf8 (Path.absoluteIn (Disk.placeText s.seat.place)
        (expand s.env (textOf args "str" "")))).length < Disk.maxPath) ∨
    (textOf args "str" "").isEmpty = true ∧
      (textOf args "path" "").isEmpty = true ∧
      expand s.env (s.expandHome "~") = s.expandHome "~"
  | _ => True

theorem not_isEmpty_of_expand {env : Env} {t : String}
    (ht : (expand env t).isEmpty = false) : ¬ t.isEmpty = true := by
  intro hempty
  rw [String.isEmpty_iff.1 hempty, expand_empty] at ht
  cases ht

theorem sameCourse_ls_of_plain {s : Site} (hplain : Plain s args .ls) :
    SameCourse s args .ls := by
  have hpath : listedByBuiltin s.env args = listedByCommand s.env args := by
    unfold listedByBuiltin listedByCommand
    dsimp only
    rcases hplain with hgiven | ⟨hempty, hpath⟩
    · rw [if_neg (not_isEmpty_of_expand hgiven), hgiven,
        if_neg Bool.false_ne_true]
    · have hnone : (expand s.env (textOf args "str" "")).isEmpty = true := by
        rw [String.isEmpty_iff.1 hempty]
        rfl
      rw [if_pos hempty, hpath, if_pos hnone]
  exact congrArg (listText s) hpath

private theorem sameCourse_cd_of_plain {s : Site} (hs : s.Stands)
    (hplain : Plain s args .cd) : SameCourse s args .cd := by
  rcases hplain with ⟨hgiven, hwished, ⟨q, hq⟩, hshort⟩ | ⟨hempty, hnone, hhome⟩
  · have hbuiltin :
        enteredByBuiltin s args = expand s.env (textOf args "str" "") := by
      have hstr := not_isEmpty_of_expand hgiven
      rw [enteredByBuiltin, chosen, if_neg hstr, if_neg hstr]
    have hcommand : enteredByCommand s args =
        Path.absoluteIn (Disk.placeText s.seat.place)
          (expand s.env (textOf args "str" "")) := by
      rw [enteredByCommand, hwished, hgiven, if_neg Bool.false_ne_true]
    have hsame := destination_absoluteIn hs hq hshort
    rw [SameCourse, hbuiltin, hcommand, hq, hsame]
    exact ⟨rfl, fun _ => exist_of_destination hs.seated hsame⟩
  · have hbuiltin : enteredByBuiltin s args = s.expandHome "~" := by
      rw [enteredByBuiltin, chosen, if_pos hempty, if_pos hnone, hhome]
    have hasked : (wished s args).isEmpty = true := by
      rw [wished, String.isEmpty_iff.1 hempty]
      rfl
    have hcommand : enteredByCommand s args = s.expandHome "~" := by
      rw [enteredByCommand, if_pos hasked]
    rw [SameCourse, hbuiltin, hcommand, hasked]
    exact ⟨rfl, fun hfalse => absurd hfalse (by decide)⟩

end Twins

/-- **When a builtin and the command of its name agree.** The names are those of
four pairs. With texts as arguments and a working directory that is there, the
two end with the same text and leave the same behind just when they take the
same course: always if they print or tell the directory; if they list or change
it, when the paths that they make of the arguments come to the same. That is so
for plain arguments. -/
theorem twins_agree_iff {name : String} {b : Builtin} {c : Command}
    {args : Args} {w : World}
    (hb : Builtin.ofName? name = some b) (hc : Command.ofName? name = some c)
    (hargs : Texts args) (hw : w.toSite.Stands) :
    (Agree b c args w ↔ SameCourse w.toSite args b) ∧
    (Plain w.toSite args b → Agree b c args w) := by
  rcases twin_cases hb hc with ⟨rfl, rfl⟩ | ⟨rfl, rfl⟩ | ⟨rfl, rfl⟩ | ⟨rfl, rfl⟩
  · have hiff := agree_cd_iff hargs hw
    exact ⟨hiff, fun hplain => hiff.2 (sameCourse_cd_of_plain hw hplain)⟩
  · have hagree : Agree .echo .echo args w := agree_echo hargs
    exact ⟨iff_of_true hagree trivial, fun _ => hagree⟩
  · have hiff : Agree .ls .ls args w ↔ SameCourse w.toSite args .ls :=
      agree_ls_iff hargs
    exact ⟨hiff, fun hplain => hiff.2 (sameCourse_ls_of_plain hplain)⟩
  · have hagree : Agree .pwd .pwd args w := agree_pwd hw
    exact ⟨iff_of_true hagree trivial, fun _ => hagree⟩

/-- A world with the directories `/a` and `/b`, of which the first is the
working directory and has a variable. -/
def twinWorld : World :=
  { (default : World) with
    disk := [([], ⟨.dir, 0o755, ⟨0, 0⟩⟩), (["a"], ⟨.dir, 0o755, ⟨0, 0⟩⟩),
      (["b"], ⟨.dir, 0o755, ⟨0, 0⟩⟩)]
    seat := ⟨["a"], false⟩
    env := [("D", "/a")] }

theorem stands_twinWorld : twinWorld.toSite.Stands where
  seated := rfl
  reached := by
    refine ⟨fun name hname => ?_, fun r hr hne => ?_⟩
    · rw [mem_singleton.1 hname]
      exact ⟨by decide, by decide, by decide, by decide, by decide⟩
    · rcases prefix_cons_iff.1 hr with rfl | ⟨rest, rfl, hrest⟩
      · rfl
      · rw [prefix_nil.1 hrest] at hne
        exact absurd rfl hne
  dir := rfl
  plain := by decide

private theorem texts_str (t : String) : Texts [("str", .text t)] := by
  intro arg harg
  rw [mem_singleton.1 harg]
  exact ⟨t, rfl⟩

/-- A path through the parent of the working directory, with a variable in
it. -/
theorem twins_agree_iff_parent :
    Agree .cd .cd [("str", .text "$D/../b")] twinWorld := by
  have hbuiltin : Builtin.ofName? "cd" = some .cd := by decide
  have hcommand : Command.ofName? "cd" = some .cd := by decide
  refine (twins_agree_iff hbuiltin hcommand (texts_str _) stands_twinWorld).2
    (.inl ⟨?_, ?_, ⟨["b"], ?_⟩, ?_⟩)
  · decide
  · decide
  · simp only [destination, String.contains_char_eq]
    rfl
  · decide

/-- The site of `twinWorld` with a new directory. -/
def madeSite : Site :=
  { twinWorld.toSite with
    disk :=
      twinWorld.disk.put ["a", "c"] ⟨.dir, 0o755, Host.instant twinWorld.host⟩ }

private theorem makeDirs_twinWorld :
    makeDirs "/a/c" twinWorld.toSite = (.ok (), madeSite) := by
  have habove : exist twinWorld.toSite "/a" = true := by
    simp only [exist, node?, String.contains_char_eq]
    rfl
  have hmade : makeDir "/a/c" twinWorld.toSite = (.ok (), madeSite) := by
    simp only [makeDir, checkPath, String.contains_char_eq]
    rfl
  have hsplit : splitLast "/a/c" = ("/a", "c") := by decide
  have hlength : "/a/c".length = 3 + 1 := by decide
  rw [makeDirs, hlength, makeDirsWith, hsplit]
  dsimp only
  rw [get_bind_apply, habove, Bool.not_true, Bool.and_false,
    if_neg Bool.false_ne_true, Bool.false_and, if_neg Bool.false_ne_true]
  exact orElse_of_ok hmade

/-- The builtin does not make a directory that is missing, and the command does
if it is asked to. -/
theorem twins_differ_missing :
    Texts [("str", .text "c"), ("mkdir", .text "1")] ∧
      Builtin.cd.run [("str", .text "c"), ("mkdir", .text "1")] twinWorld =
        (.ok (.text "cd failed: [Errno 2] No such file or directory: 'c'"),
          twinWorld) ∧
      ((liftM (Command.cd.run [("str", .text "c"), ("mkdir", .text "1")]) :
        Act Value) twinWorld).1 = .ok (.text "/a/c") := by
  have hargs : Texts [("str", .text "c"), ("mkdir", .text "1")] := by
    intro arg harg
    simp only [mem_cons, not_mem_nil, or_false] at harg
    rcases harg with rfl | rfl
    · exact ⟨_, rfl⟩
    · exact ⟨_, rfl⟩
  have hbuiltin :
    cdBuiltin [("str", .text "c"), ("mkdir", .text "1")] twinWorld.toSite =
      (.ok (.text "cd failed: [Errno 2] No such file or directory: 'c'"),
        twinWorld.toSite) := by
    rw [cdBuiltin_apply hargs stands_twinWorld.seated]
    simp only [destination, String.contains_char_eq]
    rfl
  have hcommand : (cdCommand [("str", .text "c"), ("mkdir", .text "1")]
      twinWorld.toSite).1 = .ok (.text "/a/c") := by
    have hwished : (wished twinWorld [("str", .text "c"),
        ("mkdir", .text "1")]).isEmpty = false := by
      decide
    have htarget : enteredByCommand twinWorld.toSite [("str", .text "c"),
        ("mkdir", .text "1")] = "/a/c" := by
      decide
    have hwanted : wantsDir [("str", .text "c"), ("mkdir", .text "1")] =
        true := by decide
    have hexist : exist twinWorld.toSite "/a/c" = false := by
      simp only [exist, node?, String.contains_char_eq]
      rfl
    rw [cdCommand_eq hargs stands_twinWorld.seated, hwished,
      if_neg Bool.false_ne_true, htarget, hwanted, enterOrMake, hexist,
      if_neg Bool.false_ne_true, Bool.not_true, if_neg Bool.false_ne_true,
      attempt_bind_apply, makeDirs_twinWorld]
    dsimp only
    rw [enter_apply rfl]
    simp only [destination, String.contains_char_eq]
    rfl
  refine ⟨hargs, ?_, ?_⟩
  · exact congrArg (fun outcome =>
      (outcome.1, { twinWorld with toSite := outcome.2 })) hbuiltin
  · exact hcommand

end TaskShell.Shell
