import TaskShell.Proofs.Quoting
import TaskShell.Proofs.Walking

/-!
# Changing and making directories

Changing to a path leads to the place of a directory, or it is refused, and then
the wording tells the path and the condition. The outcome as a value is
`destination`. A directory that was made is there afterwards, which is how a
disk on which something was made is known from the one before.
-/

namespace TaskShell

open Act Text

variable {s t : Site} {p : String} {q : Place} {u : Unit}

/-- The working directory is there: it is a directory that can be reached from
the root, and its name can be written. -/
structure Site.Stands (s : Site) : Prop where
  seated : s.seat.removed = false
  reached : s.disk.Reached s.seat.place
  dir : s.disk.isDir s.seat.place = true
  plain : '\x00' ∉ (Disk.placeText s.seat.place).toList

theorem Site.Stands.root (h : s.Stands) : s.disk.isDir [] = true := by
  by_cases hplace : s.seat.place = []
  · rw [← hplace]
    exact h.dir
  · exact h.reached.above [] List.nil_prefix (Ne.symm hplace)

namespace Files

/-! ## Changing the directory -/

/-- Where `changeDir` leads: the place of a directory, or why it is refused. -/
def destination (s : Site) (p : String) : Except Fault Place :=
  if p.contains '\x00' then .error (.value .nullByte)
  else
    match s.disk.locate s.seat p with
    | .error code => .error (refuse code p)
    | .ok (.lost q) => .ok q
    | .ok (.at_ q) =>
      match s.disk.get? q with
      | none => .error (refuse .noEntry p)
      | some node =>
        if node.isDir then .ok q else .error (refuse .notDirectory p)

def moved (s : Site) : Except Fault Place → Site
  | .ok q => { s with seat := ⟨q, false⟩ }
  | .error _ => s

theorem moved_disk (s : Site) (d : Except Fault Place) :
    (moved s d).disk = s.disk := by
  cases d with
  | ok q => rfl
  | error f => rfl

theorem not_lost (hseated : s.seat.removed = false) :
    s.disk.locate s.seat p ≠ .ok (.lost q) := by
  intro h
  have hwalk := Disk.walk_of_locate h
  have hstart : ∃ r, Disk.start s.seat p = .at_ r := by
    unfold Disk.start
    rw [hseated]
    split
    · exact ⟨_, rfl⟩
    · exact ⟨_, rfl⟩
  obtain ⟨r, hr⟩ := hstart
  rw [hr] at hwalk
  obtain ⟨place, hplace⟩ := Disk.place_of_walk hwalk
  cases hplace

def located (s : Site) (p : String) : Except Fault Cursor :=
  if p.contains '\x00' then .error (.value .nullByte)
    else (s.disk.locate s.seat p).mapError (refuse · p)

theorem locate_apply (s : Site) (p : String) :
    locate p s = (located s p, s) := by
  unfold locate located
  cases hp : p.contains '\x00' with
  | true =>
    have hcheck : checkPath p s = (.error (.value .nullByte), s) := by
      unfold checkPath
      rw [hp]
      rfl
    exact bind_of_error hcheck
  | false =>
    rw [bind_of_ok (checkPath_of_not_contains hp s), get_bind_apply]
    cases s.disk.locate s.seat p with
    | error code => rfl
    | ok last => rfl

/-- **`changeDir` goes to the `destination` of a path.** -/
theorem changeDir_eq (hseated : s.seat.removed = false) (p : String) :
    changeDir p s =
      ((destination s p).map fun _ => (), moved s (destination s p)) := by
  have hlocate := locate_apply s p
  unfold changeDir destination
  unfold located at hlocate
  cases hp : p.contains '\x00' with
  | true =>
    rw [hp] at hlocate
    exact bind_of_error hlocate
  | false =>
    rw [hp] at hlocate
    rw [if_neg Bool.false_ne_true]
    cases hlast : s.disk.locate s.seat p with
    | error code =>
      rw [hlast] at hlocate
      exact bind_of_error hlocate
    | ok last =>
      rw [hlast] at hlocate
      rw [bind_of_ok hlocate]
      cases last with
      | lost q => exact absurd hlast (not_lost hseated)
      | at_ q =>
        dsimp only
        rw [get_bind_apply]
        cases s.disk.get? q with
        | none => rfl
        | some node =>
          dsimp only
          split
          · rfl
          · rfl

theorem locate_bind_snd {α β : Type} (g : Site → β) {next : Cursor → Job α}
    (h : ∀ last, g (next last s).2 = g s) :
    g ((locate p >>= next) s).2 = g s := by
  have hlocate := locate_apply s p
  cases hlast : located s p with
  | error f =>
    rw [hlast] at hlocate
    rw [bind_of_error hlocate]
  | ok last =>
    rw [hlast] at hlocate
    rw [bind_of_ok hlocate]
    exact h last

theorem changeDir_disk (s : Site) (p : String) :
    (changeDir p s).2.disk = s.disk := by
  refine locate_bind_snd Site.disk fun last => ?_
  cases last with
  | lost q => rfl
  | at_ q =>
    dsimp only
    rw [get_bind_apply]
    cases s.disk.get? q with
    | none => rfl
    | some node =>
      dsimp only
      split <;> rfl

theorem listDir_snd (s : Site) (p : String) : (listDir p s).2 = s := by
  refine locate_bind_snd id fun last => ?_
  cases last with
  | lost q => rfl
  | at_ q =>
    dsimp only
    rw [get_bind_apply]
    cases s.disk.get? q with
    | none => rfl
    | some node =>
      dsimp only
      split <;> rfl

theorem error_of_destination {f : Fault} (h : destination s p = .error f) :
    f = .value .nullByte ∨ ∃ code, f = refuse code p := by
  unfold destination at h
  split at h
  · exact .inl (Except.error.inj h).symm
  · split at h
    · exact .inr ⟨_, (Except.error.inj h).symm⟩
    · cases h
    · split at h
      · exact .inr ⟨_, (Except.error.inj h).symm⟩
      · split at h
        · cases h
        · exact .inr ⟨_, (Except.error.inj h).symm⟩

theorem message_nullByte_ne (code : Errno) (p : String) :
    (Fault.value .nullByte).message ≠ (refuse code p).message := by
  intro h
  have hchars := congrArg String.toList h
  rw [message_refuse, lead] at hchars
  simp only [String.toList_append, List.append_assoc] at hchars
  exact absurd (List.cons.inj hchars).1 (by decide)

/-- **Two paths that are refused in the same words are refused for the same
cause**, by `destination`. -/
theorem eq_of_message {q : String} {f g : Fault}
    (hf : destination s p = .error f) (hg : destination s q = .error g)
    (h : f.message = g.message) : f = g := by
  rcases error_of_destination hf with rfl | ⟨code, rfl⟩
  · rcases error_of_destination hg with rfl | ⟨other, rfl⟩
    · rfl
    · exact absurd h (message_nullByte_ne other q)
  · rcases error_of_destination hg with rfl | ⟨other, rfl⟩
    · exact absurd h.symm (message_nullByte_ne code p)
    · obtain ⟨rfl, rfl⟩ := refuse_of_message_eq h
      rfl

theorem destination_of_locate (hp : p.contains '\x00' = false)
    (h : s.disk.locate s.seat p = .ok (.at_ q)) (hdir : s.disk.isDir q = true) :
    destination s p = .ok q := by
  obtain ⟨node, hnode, hisDir⟩ := Disk.get?_of_isDir hdir
  unfold destination
  rw [hp, if_neg Bool.false_ne_true, h]
  dsimp only
  rw [hnode]
  dsimp only
  rw [if_pos hisDir]

theorem locate_of_destination (hseated : s.seat.removed = false)
    (h : destination s p = .ok q) :
    p.contains '\x00' = false ∧ s.disk.locate s.seat p = .ok (.at_ q) ∧
    s.disk.isDir q = true := by
  unfold destination at h
  split at h
  · cases h
  · next hp =>
    split at h
    · cases h
    · next hlost => exact absurd hlost (not_lost hseated)
    · next r hr =>
      split at h
      · cases h
      · next node hnode =>
        split at h
        · next hdir =>
          cases h
          exact ⟨Bool.eq_false_iff.2 hp, hr,
            (Disk.isDir_of_get? hnode).trans hdir⟩
        · cases h

theorem exist_of_find {found : Place × Node} (hp : p.contains '\x00' = false)
    (h : s.disk.find s.seat p = .ok found) : exist s p = true := by
  unfold exist node?
  rw [hp, if_neg Bool.false_ne_true, h]
  rfl

theorem exist_of_destination (hseated : s.seat.removed = false)
    (h : destination s p = .ok q) : exist s p = true := by
  obtain ⟨hp, hlocate, hdir⟩ := locate_of_destination hseated h
  obtain ⟨node, hnode, -⟩ := Disk.get?_of_isDir hdir
  have hfind : s.disk.find s.seat p = .ok (q, node) := by
    unfold Disk.find
    rw [hlocate]
    dsimp only [bind, Except.bind]
    rw [hnode]
    rfl
  exact exist_of_find hp hfind

/-- **A path and its absolute normal form have the same `destination`**, if that
is not too long. -/
theorem destination_absoluteIn (hs : s.Stands) (h : destination s p = .ok q)
    (hshort : (utf8 (Path.absoluteIn (Disk.placeText s.seat.place) p)).length <
      Disk.maxPath) :
    destination s (Path.absoluteIn (Disk.placeText s.seat.place) p) =
      .ok q := by
  obtain ⟨hp, hlocate, hdir⟩ := locate_of_destination hs.seated h
  refine destination_of_locate ?_
    (Disk.locate_absoluteIn hs.seated hs.reached hs.root hlocate hshort) hdir
  rw [String.contains_char_eq, decide_eq_false_iff_not] at hp ⊢
  intro hnull
  rcases Disk.mem_of_mem_absoluteIn (Disk.isAbsolute_placeText _) hnull
    with hnull | hnull | hnull
  · cases hnull
  · exact hs.plain hnull
  · exact hp hnull

/-! ## Making directories -/

theorem exist_of_isDir (h : isDir s p = true) : exist s p = true := by
  unfold isDir at h
  unfold exist
  cases hnode : node? s p with
  | none =>
    rw [hnode] at h
    cases h
  | some node => rfl

theorem exist_of_isAbsolute (hp : Path.isAbsolute p = true)
    (hdisk : s.disk = t.disk) : exist s p = exist t p := by
  have hfind : s.disk.find s.seat p = t.disk.find t.seat p := by
    unfold Disk.find Disk.locate
    rw [hdisk, hp]
    rfl
  unfold exist node?
  rw [hfind]

private theorem exist_of_makeDir (hasks : asksDir p = false)
    (h : makeDir p s = (.ok u, t)) : exist t p = true := by
  obtain ⟨_, s₁, hcheck, h⟩ := ok_of_bind h
  obtain ⟨hp, rfl⟩ := ok_of_checkPath hcheck
  rw [get_bind_apply, Path.trimSlashes_of_not_asksDir hasks,
    String.ofList_toList] at h
  cases hlocate : s.disk.locate s.seat p with
  | error code =>
    rw [hlocate] at h
    cases h
  | ok last =>
    rw [hlocate] at h
    cases last with
    | lost q => cases h
    | at_ place =>
      dsimp only at h
      split at h
      · cases h
      · next hfree =>
        split at h
        · cases h
        · cases h
          have hnone : s.disk.get? place = none :=
            Option.not_isSome_iff_eq_none.1 hfree
          exact exist_of_find hp
            (Disk.find_put (Disk.isDir_of_get?_none hnone) _ hlocate)

/-- **`makeDirs` makes a directory with those above it**, if the path ends with
its name. -/
theorem exist_of_makeDirs (hne : p.length ≠ 0) (hasks : asksDir p = false)
    (hdot : (splitLast p).2 ≠ ".") (h : makeDirs p s = (.ok u, t)) :
    exist t p = true := by
  obtain ⟨fuel, hfuel⟩ := Nat.exists_eq_succ_of_ne_zero hne
  unfold makeDirs at h
  rw [hfuel, makeDirsWith] at h
  simp only [beq_eq_false_iff_ne.2 hdot, Bool.and_false, Bool.false_eq_true,
    if_false] at h
  rw [get_bind_apply] at h
  -- whether or not directories above were made first, the last step is the same
  generalize hlast : Act.orElse (makeDir p) _ = last at h
  have hmade : ∃ s₁, last s₁ = (.ok u, t) := by
    split at h
    · obtain ⟨_, s₁, -, h⟩ := ok_of_bind h
      exact ⟨s₁, h⟩
    · exact ⟨s, h⟩
  obtain ⟨s₁, hmade⟩ := hmade
  rw [← hlast] at hmade
  cases hdir : makeDir p s₁ with
  | mk outcome s₂ =>
    cases outcome with
    | ok _ =>
      rw [orElse_of_ok hdir] at hmade
      cases hmade
      exact exist_of_makeDir hasks hdir
    | error f =>
      rw [orElse_of_error hdir] at hmade
      split at hmade
      · rw [get_bind_apply] at hmade
        split at hmade
        · next hthere =>
          cases hmade
          exact exist_of_isDir hthere
        · cases hmade
      · cases hmade

private theorem exist_root (hroot : s.disk.isDir [] = true)
    (hp : p = "/" ∨ p = "//") :
    exist s p = true := by
  have hempty : p ++ "/".intercalate [] = p := by
    rw [String.intercalate_nil, String.append_empty]
  have hshort : (utf8 (p ++ "/".intercalate [])).length < Disk.maxPath := by
    rw [hempty]
    rcases hp with rfl | rfl <;> decide
  have hlocate := Disk.reached_nil.locate hroot hp hshort s.seat
  rw [hempty] at hlocate
  obtain ⟨node, hnode, -⟩ := Disk.get?_of_isDir hroot
  have hfind : s.disk.find s.seat p = .ok ([], node) := by
    unfold Disk.find
    rw [hlocate]
    dsimp only [bind, Except.bind]
    rw [hnode]
    rfl
  refine exist_of_find ?_ hfind
  rw [String.contains_char_eq]
  rcases hp with rfl | rfl <;> decide

/-- **`makeDirs` changes the disk** at an absolute path in normal form, if
nothing was there. -/
theorem makeDirs_changes (hroot : s.disk.isDir [] = true) {dir : String}
    (hdir : Path.isAbsolute dir = true)
    (hexist : exist s (Path.absoluteIn dir p) = false)
    (h : makeDirs (Path.absoluteIn dir p) s = (.ok u, t)) :
    t.disk ≠ s.disk := by
  have habsolute : Path.isAbsolute (Path.absoluteIn dir p) = true := by
    obtain ⟨root, names, hslashes, hnormal, -⟩ := Disk.absoluteIn_names hdir p
    rw [hnormal, Path.isAbsolute_iff]
    rcases hslashes with rfl | rfl
    · exact ⟨_, rfl⟩
    · exact ⟨"/" ++ "/".intercalate names, by rw [← String.append_assoc]; rfl⟩
  rcases Disk.absoluteIn_last hdir p
    with htop | ⟨before, last, hlast, hslash, hne, hdot⟩
  · rw [exist_root hroot htop] at hexist
    cases hexist
  · have hbase : Path.baseName (Path.absoluteIn dir p) = last := by
      rw [hlast, Path.baseName_append before hslash]
    have hasks : asksDir (Path.absoluteIn dir p) = false := by
      rw [Bool.eq_false_iff]
      intro hends
      obtain ⟨stem, hstem⟩ := Path.endsWith_slash_iff.1 hends
      have hnone : Path.baseName (stem ++ "/" ++ "") = "" :=
        Path.baseName_append stem List.not_mem_nil
      rw [String.append_empty, ← hstem, hbase] at hnone
      rw [hnone] at hne
      cases hne
    have htail : (splitLast (Path.absoluteIn dir p)).2 ≠ "." := by
      unfold splitLast
      dsimp only
      rw [hbase, hne]
      exact hdot
    have hlength : (Path.absoluteIn dir p).length ≠ 0 := by
      rw [hlast]
      simp
    have hmade := exist_of_makeDirs hlength hasks htail h
    intro hdisk
    rw [exist_of_isAbsolute habsolute hdisk, hexist] at hmade
    cases hmade

end Files

end TaskShell
