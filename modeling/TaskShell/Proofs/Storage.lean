import TaskShell.Proofs.Action

/-!
# Files that are written are read back

A path is followed through directories, and a file is only ever put at a place
that holds no directory. So putting it there changes nothing on the way to any
place that could be reached before: the same path leads to the same place, and
finds the new file there.
-/

namespace TaskShell

open Act Text List

variable {q : Place} {node : Node} {last : Cursor} {seat : Seat} {p : String}
  {s t : Site} {data : List UInt8}

namespace Disk

/-! ## Putting a file on a disk -/

theorem get?_put_self (d : Disk) (place : Place) (n : Node) :
    (d.put place n).get? place = some n := by
  induction d with
  | nil => simp [put, get?]
  | cons entry d ih =>
    obtain ⟨q, old⟩ := entry
    rw [put]
    split
    · next hq =>
      rw [eq_of_beq hq]
      simp [get?]
    · next hq =>
      have hne : (place == q) = false := by
        rw [beq_eq_false_iff_ne]
        rintro rfl
        exact hq (beq_self_eq_true _)
      rw [get?, lookup_cons, hne]
      exact ih

theorem get?_put_of_ne (d : Disk) {place : Place} (h : q ≠ place) (n : Node) :
    (d.put place n).get? q = d.get? q := by
  induction d with
  | nil =>
    have hq : (q == place) = false := beq_eq_false_iff_ne.2 h
    rw [put, get?, lookup_cons, hq]
    rfl
  | cons entry d ih =>
    obtain ⟨r, old⟩ := entry
    rw [put]
    split
    · next hr =>
      have hq : (q == r) = false := by
        rw [eq_of_beq hr]
        exact beq_eq_false_iff_ne.2 h
      rw [get?, get?, lookup_cons, lookup_cons, hq]
    · rw [get?, get?, lookup_cons, lookup_cons]
      split
      · rfl
      · exact ih

variable {d : Disk} {place : Place}

theorem isDir_of_get? (h : d.get? q = some node) : d.isDir q = node.isDir := by
  rw [isDir, h]
  rfl

theorem isDir_of_get?_none (h : d.get? q = none) : d.isDir q = false := by
  rw [isDir, h]
  rfl

theorem ne_of_isDir (hplace : d.isDir place = false) (hq : d.isDir q = true) :
    q ≠ place := by
  rintro rfl
  rw [hq] at hplace
  cases hplace

/-- Another disk that has all directories of a disk. -/
def HasDirs (d d' : Disk) : Prop := ∀ q, d.isDir q = true → d'.isDir q = true

theorem hasDirs_put (hplace : d.isDir place = false) (n : Node) :
    d.HasDirs (d.put place n) := by
  intro q hq
  rw [isDir, get?_put_of_ne d (ne_of_isDir hplace hq)]
  exact hq

theorem get?_of_isDir (h : d.isDir q = true) :
    ∃ node, d.get? q = some node ∧ node.isDir = true := by
  rw [isDir] at h
  cases hq : d.get? q with
  | none =>
    rw [hq] at h
    cases h
  | some node =>
    rw [hq] at h
    exact ⟨node, rfl, h⟩

section HasDirs

variable {d' : Disk} (h : d.HasDirs d')

include h

private theorem step_of_hasDirs {cursor next : Cursor} {name : String}
    (hstep : d.step cursor name = .ok next) :
    d'.step cursor name = .ok next := by
  cases cursor with
  | lost q =>
    unfold step at hstep ⊢
    dsimp only at hstep ⊢
    split at hstep
    · next hstay => rw [if_pos hstay, hstep]
    · next hstay =>
      split at hstep
      · next hup =>
        split at hstep
        · next hdir => rw [if_neg hstay, if_pos hup, if_pos (h _ hdir), hstep]
        · cases hstep
      · cases hstep
  | at_ q =>
    unfold step at hstep ⊢
    dsimp only at hstep ⊢
    cases hq : d.get? q with
    | none =>
      rw [hq] at hstep
      cases hstep
    | some node =>
      rw [hq] at hstep
      cases hdir : node.isDir with
      | false =>
        dsimp only at hstep
        rw [if_pos (by rw [hdir]; rfl)] at hstep
        cases hstep
      | true =>
        obtain ⟨node', hq', hdir'⟩ :=
          get?_of_isDir (h q ((isDir_of_get? hq).trans hdir))
        dsimp only at hstep
        rw [hdir] at hstep
        rw [hq']
        dsimp only
        rw [hdir']
        exact hstep

/-- **`walk` sees directories only.** -/
theorem walk_of_hasDirs {cursor : Cursor} {names : List String}
    (hwalk : d.walk cursor names = .ok last) :
    d'.walk cursor names = .ok last := by
  induction names generalizing cursor with
  | nil => exact hwalk
  | cons name names ih =>
    rw [walk] at hwalk ⊢
    cases hstep : d.step cursor name with
    | error code =>
      rw [hstep] at hwalk
      cases hwalk
    | ok next =>
      rw [hstep] at hwalk
      rw [step_of_hasDirs h hstep]
      exact ih hwalk

theorem locate_of_hasDirs (hlocate : d.locate seat p = .ok last) :
    d'.locate seat p = .ok last := by
  unfold locate at hlocate ⊢
  split at hlocate
  · cases hlocate
  · next hne =>
    split at hlocate
    · cases hlocate
    · next hlong =>
      rw [if_neg hne, if_neg hlong]
      exact walk_of_hasDirs h hlocate

end HasDirs

theorem find_put (hplace : d.isDir place = false) (n : Node)
    (h : d.locate seat p = .ok (.at_ place)) :
    (d.put place n).find seat p = .ok (place, n) := by
  unfold find
  rw [locate_of_hasDirs (hasDirs_put hplace n) h]
  dsimp only [bind, Except.bind]
  rw [get?_put_self]
  rfl

theorem length_of_locate (h : d.locate seat p = .ok last) :
    (utf8 p).length < maxPath := by
  unfold locate at h
  split at h
  · cases h
  · split at h
    · cases h
    · omega

end Disk

namespace Path

theorem trimSlashes_of_not_asksDir (h : Files.asksDir p = false) :
    trimSlashes p.toList = p.toList := by
  unfold trimSlashes
  split
  · rfl
  · unfold Files.asksDir endsWith at h
    cases hrev : p.toList.reverse with
    | nil =>
      rw [reverse_eq_nil_iff.1 hrev]
      rfl
    | cons c cs =>
      have hc : (c == '/') = false := by
        rw [hrev] at h
        change ('/' == c && [].isPrefixOf cs) = false at h
        rw [isPrefixOf_nil_left, Bool.and_true, beq_eq_false_iff_ne] at h
        exact beq_eq_false_iff_ne.2 (Ne.symm h)
      rw [dropWhile_cons, hc, if_neg Bool.false_ne_true, ← hrev,
        reverse_reverse]

end Path

namespace Files

/-! ## Requests that succeed -/

theorem workingDir_of_seated (hseated : s.seat.removed = false) :
    workingDir s = (.ok (Disk.placeText s.seat.place), s) := by
  unfold workingDir
  rw [get_bind_apply, hseated]
  rfl

theorem workingDir_snd (s : Site) : (workingDir s).2 = s := by
  cases hseat : s.seat.removed with
  | false => rw [workingDir_of_seated hseat]
  | true =>
    unfold workingDir
    rw [get_bind_apply, hseat]
    rfl

theorem ok_of_checkPath {u : Unit} (h : checkPath p s = (.ok u, t)) :
    p.contains '\x00' = false ∧ s = t := by
  unfold checkPath at h
  cases hp : p.contains '\x00' with
  | true =>
    rw [hp, if_pos rfl] at h
    cases h
  | false =>
    rw [hp, if_neg Bool.false_ne_true] at h
    cases h
    exact ⟨rfl, rfl⟩

theorem checkPath_of_not_contains (h : p.contains '\x00' = false) (s : Site) :
    checkPath p s = (.ok (), s) := by
  unfold checkPath
  rw [h]
  rfl

theorem ok_of_find {found : Place × Node} (h : find p s = (.ok found, t)) :
    s = t ∧ p.contains '\x00' = false ∧ s.disk.find s.seat p = .ok found := by
  obtain ⟨_, s₁, hcheck, h⟩ := ok_of_bind h
  obtain ⟨hp, rfl⟩ := ok_of_checkPath hcheck
  rw [get_bind_apply] at h
  cases hfind : s.disk.find s.seat p with
  | error code =>
    rw [hfind] at h
    cases h
  | ok seen =>
    rw [hfind] at h
    cases h
    exact ⟨rfl, hp, rfl⟩

theorem find_of_disk {found : Place × Node} (hp : p.contains '\x00' = false)
    (h : s.disk.find s.seat p = .ok found) : find p s = (.ok found, s) := by
  unfold find
  rw [bind_of_ok (checkPath_of_not_contains hp s), get_bind_apply, h]
  rfl

/-- `readBytes` changes nothing, and it reads a file. -/
theorem ok_of_readBytes (h : readBytes p s = (.ok data, t)) :
    s = t ∧ p.contains '\x00' = false ∧
      ∃ place node, s.disk.find s.seat p = .ok (place, node) ∧
        node.isDir = false ∧ node.data = data := by
  obtain ⟨⟨place, node⟩, s₁, hfind, h⟩ := ok_of_bind h
  obtain ⟨rfl, hp, hdisk⟩ := ok_of_find hfind
  dsimp only at h
  split at h
  · cases h
  · next hdir =>
    cases h
    exact ⟨rfl, hp, place, node, hdisk, Bool.eq_false_iff.2 hdir, rfl⟩

theorem readBytes_snd (p : String) (s : Site) : (readBytes p s).2 = s := by
  have hcheck : (checkPath p s).2 = s := by
    unfold checkPath
    split <;> rfl
  have hfind : (find p s).2 = s := by
    refine bind_snd hcheck fun _ => ?_
    rw [get_bind_apply]
    cases s.disk.find s.seat p with
    | ok found => rfl
    | error code => rfl
  refine bind_snd hfind fun found => ?_
  dsimp only
  split <;> rfl

theorem readBytes_of_fst (h : (readBytes p s).1 = .ok data) :
    readBytes p s = (.ok data, s) := by
  have hread : readBytes p s = (.ok data, (readBytes p s).2) := Prod.ext h rfl
  obtain ⟨hsite, -⟩ := ok_of_readBytes hread
  rw [hread, ← hsite]

theorem readBytes_of_disk {place : Place} (hp : p.contains '\x00' = false)
    (h : s.disk.find s.seat p = .ok (place, node)) (hdir : node.isDir = false) :
    readBytes p s = (.ok node.data, s) := by
  unfold readBytes
  rw [bind_of_ok (find_of_disk hp h)]
  dsimp only
  rw [hdir]
  rfl

private theorem isFile_of_disk {place : Place} (hp : p.contains '\x00' = false)
    (h : s.disk.find s.seat p = .ok (place, node)) (hdir : node.isDir = false) :
    isFile s p = true := by
  unfold isFile node?
  rw [hp, if_neg Bool.false_ne_true, h]
  show node.isFile = true
  rw [Node.isFile, hdir]
  rfl

theorem isFile_of_readBytes (h : readBytes p s = (.ok data, t)) :
    isFile s p = true := by
  obtain ⟨-, hp, place, node, hfind, hnode, -⟩ := ok_of_readBytes h
  exact isFile_of_disk hp hfind hnode

theorem length_of_readBytes (h : readBytes p s = (.ok data, t)) :
    (utf8 p).length < Disk.maxPath := by
  obtain ⟨-, -, place, node, hfind, -, -⟩ := ok_of_readBytes h
  unfold Disk.find at hfind
  cases hlocate : s.disk.locate s.seat p with
  | error code =>
    rw [hlocate] at hfind
    cases hfind
  | ok last => exact Disk.length_of_locate hlocate

/-- `target` is a place that the path leads to and that holds no directory. -/
theorem ok_of_target {place : Place} (h : target p s = (.ok place, t)) :
    s = t ∧ p.contains '\x00' = false ∧
    s.disk.locate s.seat p = .ok (.at_ place) ∧
      s.disk.isDir place = false := by
  obtain ⟨_, s₁, hcheck, h⟩ := ok_of_bind h
  obtain ⟨hp, rfl⟩ := ok_of_checkPath hcheck
  rw [get_bind_apply] at h
  cases hlocate :
      s.disk.locate s.seat (String.ofList (Path.trimSlashes p.toList)) with
  | error code =>
    rw [hlocate] at h
    cases h
  | ok last =>
    cases last with
    | lost q =>
      rw [hlocate] at h
      cases h
    | at_ q =>
      rw [hlocate] at h
      -- both for a file that is there and for a new one, a path that asks for a
      -- directory is refused
      have hasks : asksDir p = false ∧ s.disk.isDir q = false ∧
          q = place ∧ s = t := by
        cases hnode : s.disk.get? q with
        | some node =>
          dsimp only at h
          rw [hnode] at h
          dsimp only at h
          split at h
          · cases h
          · next hdir =>
            split at h
            · cases h
            · next hasks =>
              cases h
              have hfile :=
                (Disk.isDir_of_get? hnode).trans (Bool.eq_false_iff.2 hdir)
              exact ⟨Bool.eq_false_iff.2 hasks, hfile, rfl, rfl⟩
        | none =>
          dsimp only at h
          rw [hnode] at h
          dsimp only at h
          split at h
          · cases h
          · split at h
            · cases h
            · next hasks =>
              cases h
              exact ⟨Bool.eq_false_iff.2 hasks,
                Disk.isDir_of_get?_none hnode, rfl, rfl⟩
      obtain ⟨hasks, hdir, rfl, rfl⟩ := hasks
      rw [Path.trimSlashes_of_not_asksDir hasks,
        String.ofList_toList] at hlocate
      exact ⟨rfl, hp, hlocate, hdir⟩

/-- **`readBytes` gives what `writeBytes` wrote.** -/
theorem readBytes_writeBytes {u : Unit} (h : writeBytes p data s = (.ok u, t)) :
    readBytes p t = (.ok data, t) := by
  obtain ⟨place, s₁, htarget, h⟩ := ok_of_bind h
  obtain ⟨rfl, hp, hlocate, hdir⟩ := ok_of_target htarget
  rw [get_bind_apply] at h
  cases h
  exact readBytes_of_disk (s := { s with disk := s.disk.put place _ }) hp
    (Disk.find_put hdir _ hlocate) rfl

end Files

end TaskShell
