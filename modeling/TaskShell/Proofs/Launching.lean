import TaskShell.Proofs.Bundling
import TaskShell.Proofs.Walking

/-!
# Scripts that are written next to their bundles

A bundle for the installed interpreter is run by writing its script next to it.
If the name of the entry is taken, the script gets a name with the time in it,
and nothing asks whether that one is taken too. So one file can be lost: the one
that already has the name with the time. All other files are safe, however often
the bundle is run, because a second run in the same second only writes the same
script again.

## Main results

* `Disk.Grows` - a disk that has the directories and the files of another one,
  and perhaps more files.
* `App.runBundle_grows` - a run of a bundle that endangers no file only adds
  one.
* `App.runs_keep_files_iff` - runs at any times keep all files just if none of
  them endangers one.
-/

namespace TaskShell

open Act Text

variable {place : Place} {node : Node} {s t : Site} {dir name : String}

/-! ## Disks that grow -/

namespace Disk

def bytesAt (d : Disk) (q : Place) : Option (List UInt8) :=
  ((d.get? q).filter Node.isFile).map Node.data

theorem bytesAt_eq_some_iff {d : Disk} {q : Place} {data : List UInt8} :
    d.bytesAt q = some data ↔ ∃ node, d.get? q = some node ∧
      node.isDir = false ∧ node.data = data := by
  unfold bytesAt
  cases d.get? q with
  | none => simp
  | some node => simp [Option.filter, Node.isFile, and_comm]

/-- A disk with the directories and the files of another one, and perhaps more
files. -/
structure Grows (d d' : Disk) : Prop where
  dirs : ∀ q, d'.isDir q = d.isDir q
  files : ∀ q data, d.bytesAt q = some data → d'.bytesAt q = some data

theorem Grows.refl (d : Disk) : d.Grows d := ⟨fun _ => rfl, fun _ _ h => h⟩

section Grows

variable {d d' : Disk} (h : d.Grows d')

include h

theorem Grows.locate_iff {seat : Seat} {p : String} {last : Cursor} :
    d'.locate seat p = .ok last ↔ d.locate seat p = .ok last :=
  ⟨locate_of_hasDirs fun q hq => (h.dirs q).symm.trans hq,
    locate_of_hasDirs fun q hq => (h.dirs q).trans hq⟩

/-- A disk still `Grows` when a file is put where there is no directory, and was
no file with other bytes. -/
theorem Grows.put (hnode : node.isDir = false) (hplace : d'.isDir place = false)
    (hsame : ∀ data, d.bytesAt place = some data → data = node.data) :
    d.Grows (d'.put place node) where
  dirs q := by
    by_cases hq : q = place
    · rw [hq, isDir_of_get? (get?_put_self d' place node), hnode,
        ← h.dirs, hplace]
    · rw [isDir, get?_put_of_ne d' hq]
      exact h.dirs q
  files q data hdata := by
    by_cases hq : q = place
    · subst hq
      exact bytesAt_eq_some_iff.2 ⟨node, get?_put_self d' q node, hnode,
        (hsame data hdata).symm⟩
    · rw [bytesAt, get?_put_of_ne d' hq]
      exact h.files q data hdata

end Grows

theorem find_eq_ok_iff {d : Disk} {seat : Seat} {p : String}
    (hfile : node.isDir = false) :
    d.find seat p = .ok (place, node) ↔ d.locate seat p = .ok (.at_ place) ∧
    d.get? place = some node := by
  unfold find
  cases hlocate : d.locate seat p with
  | error code =>
    constructor
    · intro h
      cases h
    · rintro ⟨h, -⟩
      cases h
  | ok last =>
    cases last with
    | lost q =>
      constructor
      · intro h
        cases h
        cases hfile
      · rintro ⟨h, -⟩
        cases h
    | at_ q =>
      dsimp only [bind, Except.bind]
      cases hq : d.get? q with
      | none =>
        constructor
        · intro h
          cases h
        · rintro ⟨h, hplace⟩
          cases h
          rw [hq] at hplace
          cases hplace
      | some found =>
        constructor
        · intro h
          cases h
          exact ⟨rfl, hq⟩
        · rintro ⟨h, hplace⟩
          cases h
          rw [hq] at hplace
          cases hplace
          rfl

end Disk

namespace Files

/-! ## Writing a file -/

theorem target_apply (p : String) (hdisk : t.disk = s.disk)
    (hseat : t.seat = s.seat) : target p t = ((target p s).1, t) := by
  unfold target
  cases hp : p.contains '\x00' with
  | true =>
    have hcheck :
        ∀ u : Site, checkPath p u = (.error (.value .nullByte), u) := by
      intro u
      rw [checkPath, hp]
      rfl
    rw [bind_of_error (hcheck t), bind_of_error (hcheck s)]
  | false =>
    rw [bind_of_ok (checkPath_of_not_contains hp t),
      bind_of_ok (checkPath_of_not_contains hp s), get_bind_apply,
      get_bind_apply, hdisk, hseat]
    cases s.disk.locate s.seat (String.ofList (Path.trimSlashes p.toList)) with
    | error code => rfl
    | ok last =>
      cases last with
      | lost q => rfl
      | at_ q =>
        dsimp only
        cases s.disk.get? q with
        | none =>
          dsimp only
          split
          · rfl
          · split
            · rfl
            · rfl
        | some node =>
          dsimp only
          split
          · rfl
          · split
            · rfl
            · rfl

theorem target_of_fst {r : Except Fault Place} (h : (target p s).1 = r) :
    target p s = (r, s) := by
  rw [target_apply p rfl rfl, h]

theorem writeBytes_of_target {p : String} (h : target p s = (.ok place, s))
    (data : List UInt8) : ∃ node, node.isDir = false ∧ node.data = data ∧
      writeBytes p data s =
        (.ok (), { s with disk := s.disk.put place node }) := by
  refine ⟨⟨.file data, ((s.disk.get? place).map Node.mode).getD 0o644,
    Host.instant s.host⟩, rfl, rfl, ?_⟩
  unfold writeBytes
  rw [bind_of_ok h, get_bind_apply]
  rfl

theorem writeBytes_of_error {p : String} {f : Fault}
    (h : target p s = (.error f, s)) (data : List UInt8) :
    writeBytes p data s = (.error f, s) := by
  unfold writeBytes
  rw [bind_of_error h]

theorem node?_eq_some_iff {p : String} (hfile : node.isDir = false) :
    node? s p = some node ↔ p.contains '\x00' = false ∧
      ∃ place, s.disk.locate s.seat p = .ok (.at_ place) ∧
        s.disk.get? place = some node := by
  unfold node?
  cases hp : p.contains '\x00' with
  | true => simp
  | false =>
    rw [if_neg Bool.false_ne_true]
    constructor
    · intro h
      split at h
      · next place found hfind =>
        cases h
        exact ⟨rfl, place, (Disk.find_eq_ok_iff hfile).1 hfind⟩
      · cases h
    · rintro ⟨-, place, hplace⟩
      rw [(Disk.find_eq_ok_iff hfile).2 hplace]

theorem exist_of_disk (hdisk : t.disk = s.disk) (hseat : t.seat = s.seat)
    (p : String) : exist t p = exist s p := by
  unfold exist node?
  rw [hdisk, hseat]

theorem get?_of_not_exist {p : String} (h : target p s = (.ok place, s))
    (hmissing : exist s p = false) : s.disk.get? place = none := by
  obtain ⟨-, hp, hlocate, -⟩ := ok_of_target h
  cases hplace : s.disk.get? place with
  | none => rfl
  | some node =>
    have hfind : s.disk.find s.seat p = .ok (place, node) := by
      unfold Disk.find
      rw [hlocate]
      dsimp only [bind, Except.bind]
      rw [hplace]
      rfl
    rw [exist, node?, hp, if_neg Bool.false_ne_true, hfind] at hmissing
    cases hmissing

theorem target_of_locate {p : String} (hp : p.contains '\x00' = false)
    (hlocate : s.disk.locate s.seat p = .ok (.at_ place))
    (hplace : s.disk.get? place = some node) (hfile : node.isDir = false) :
    target p s = (.ok place, s) := by
  have hasks : asksDir p = false := by
    rw [Bool.eq_false_iff]
    intro hasks
    have hdir := Disk.isDir_of_asksDir hasks hlocate
    rw [Disk.isDir_of_get? hplace, hfile] at hdir
    cases hdir
  unfold target
  rw [bind_of_ok (checkPath_of_not_contains hp s), get_bind_apply,
    Path.trimSlashes_of_not_asksDir hasks, String.ofList_toList, hlocate]
  dsimp only
  rw [hplace]
  dsimp only
  rw [hfile, hasks]
  rfl

/-- `readBytes` still reads the same when the disk has grown. -/
theorem readBytes_of_grows {p : String} {data : List UInt8}
    (h : readBytes p s = (.ok data, s)) (hgrows : s.disk.Grows t.disk)
    (hseat : t.seat = s.seat) : readBytes p t = (.ok data, t) := by
  obtain ⟨-, hp, place, node, hfind, hfile, rfl⟩ := ok_of_readBytes h
  obtain ⟨hlocate, hplace⟩ := (Disk.find_eq_ok_iff hfile).1 hfind
  have hbytes := hgrows.files place node.data
    (Disk.bytesAt_eq_some_iff.2 ⟨node, hplace, hfile, rfl⟩)
  obtain ⟨node', hplace', hfile', hdata⟩ := Disk.bytesAt_eq_some_iff.1 hbytes
  rw [← hdata]
  refine readBytes_of_disk hp
    ((Disk.find_eq_ok_iff hfile').2 ⟨?_, hplace'⟩) hfile'
  rw [hseat]
  exact hgrows.locate_iff.2 hlocate

end Files

namespace App

/-! ## One run -/

/-- The directory and the name that `launch` gives to the script of a bundle;
nothing if the bundle gives no name, or if it was named from a directory that is
gone. -/
def destination (p : String) (manifest : Value)
    (w : World) : Option (String × String) :=
  match (absolutePath p w).1, (entryName manifest w).1 with
  | .ok full, .ok (.text name) => some (Path.dirName full, name)
  | _, _ => none

theorem absolutePath_apply (p : String) (w : World) : absolutePath p w =
    (if Path.isAbsolute p then .ok (Path.normalize p)
      else if w.seat.removed then .error (.system .noEntry [])
      else .ok (Path.absoluteIn (Disk.placeText w.seat.place) p), w) := by
  unfold absolutePath
  cases Path.isAbsolute p with
  | true => rfl
  | false =>
    rw [if_neg Bool.false_ne_true, if_neg Bool.false_ne_true]
    cases hseat : w.seat.removed with
    | true =>
      have hdir : (liftM Files.workingDir : Act String) w =
          (.error (.system .noEntry []), w) := by
        rw [lift_apply, Files.workingDir, get_bind_apply, hseat]
        rfl
      rw [bind_of_error hdir]
      rfl
    | false =>
      have hdir : (liftM Files.workingDir : Act String) w =
          (.ok (Disk.placeText w.seat.place), w) := by
        rw [lift_apply, Files.workingDir, get_bind_apply, hseat]
        rfl
      rw [bind_of_ok hdir]
      rfl

section Manifest

variable (fields : List (String × Value))

theorem manifestField_record (name : String) (w : World) :
    manifestField (.record fields) name w =
      (.ok ((fields.lookup name).getD .null), w) := rfl

theorem entryName_apply (w u : World) :
    entryName (.record fields) w = ((entryName (.record fields) u).1, w) := by
  unfold entryName
  rw [bind_of_ok (manifestField_record fields "entry" w),
    bind_of_ok (manifestField_record fields "entry" u)]
  cases ((fields.lookup "entry").getD .null).isTruthy with
  | true => rfl
  | false =>
    rw [if_neg Bool.false_ne_true,
      bind_of_ok (manifestField_record fields "name" w),
      bind_of_ok (manifestField_record fields "name" u)]
    cases (fields.lookup "name").getD .null <;> rfl

theorem destination_of_seat (p : String) {w u : World} (h : u.seat = w.seat) :
    destination p (.record fields) u = destination p (.record fields) w := by
  unfold destination
  rw [absolutePath_apply, absolutePath_apply, entryName_apply fields u w, h]

end Manifest

theorem launch_site (dir target : String) (script : List UInt8) (w : World) :
    (launch dir target script w).2.toSite =
      (Files.writeBytes target script w.toSite).2 := by
  let handler (f : Fault) : Act Unit :=
    fail (.runtime s!"Failed to write/run python payload: {f.message}")
  have hlift : (liftM (Files.writeBytes target script) : Act Unit) w =
      ((Files.writeBytes target script w.toSite).1,
        { w with toSite := (Files.writeBytes target script w.toSite).2 }) :=
    lift_apply _ _
  unfold launch
  cases hwrite : (Files.writeBytes target script w.toSite).1 with
  | error f =>
    rw [hwrite] at hlift
    have hfail : Act.orElse (liftM (Files.writeBytes target script)) handler w =
      (.error (.runtime s!"Failed to write/run python payload: {f.message}"),
        _) := orElse_of_error hlift
    rw [bind_of_error hfail]
  | ok u =>
    rw [hwrite] at hlift
    have hdone : Act.orElse (liftM (Files.writeBytes target script)) handler w =
        (.ok u, _) := orElse_of_ok hlift
    rw [bind_of_ok hdone]
    rfl

/-- A bundle for the installed interpreter, read from a path. -/
structure Installed (p : String) (fields : List (String × Value))
    (script : List UInt8) (w : World) : Prop where
  read : ∃ bytes, Files.readBytes p w.toSite = (.ok bytes, w.toSite) ∧
    Bundle.unpack bytes = .ok (.record fields, script)
  type : fields.lookup "type" = some (.text "python")

variable {p : String} {fields : List (String × Value)} {script : List UInt8}
  {w u : World}

section Run

variable (h : Installed p fields script w)
include h

/-- `runBundle` writes the script of an `Installed` bundle, if there is a
`destination`, and does nothing else to the site. -/
theorem runBundle_site : (runBundle p w).2.toSite =
    ((destination p (.record fields) w).elim w.toSite fun dest =>
      (Files.writeBytes (scriptTarget w dest.1 dest.2) script w.toSite).2) := by
  obtain ⟨bytes, hread, hunpack⟩ := h.read
  have hfile := Files.isFile_of_readBytes hread
  have hfield : manifestField (.record fields) "type" w =
      (.ok (.text "python"), w) := by
    rw [manifestField_record, h.type]
    rfl
  have hkind : ((Value.text "python").text? ==
      some Bundle.Interpreter.installed.name) = true := by decide
  have habsolute := absolutePath_apply p w
  have hentry := entryName_apply fields w w
  unfold runBundle destination
  rw [get_bind_apply, hfile, Bool.not_true, if_neg Bool.false_ne_true]
  beta_reduce
  rw [bind_of_ok (lift_of_ok hread), hunpack]
  dsimp only
  rw [bind_of_ok hfield, if_pos hkind]
  cases hfull : (absolutePath p w).1 with
  | error f =>
    rw [bind_of_error (Prod.ext hfull (by rw [habsolute]))]
    rfl
  | ok full =>
    rw [bind_of_ok (Prod.ext hfull (by rw [habsolute]))]
    cases hname : (entryName (.record fields) w).1 with
    | error f =>
      rw [bind_of_error (Prod.ext hname (by rw [hentry]))]
      rfl
    | ok name =>
      rw [bind_of_ok (Prod.ext hname (by rw [hentry]))]
      cases name with
      | text name =>
        dsimp only
        rw [get_bind_apply, launch_site]
        rfl
      | _ => rfl

variable (hdest : destination p (.record fields) w = some (dir, name))
include hdest

theorem runBundle_put
    (htarget : (Files.target (scriptTarget w dir name) w.toSite).1 =
      .ok place) :
    ∃ node, node.isDir = false ∧ node.data = script ∧
      (runBundle p w).2.toSite =
        { w.toSite with disk := w.disk.put place node } := by
  obtain ⟨node, hnode, hdata, hwrite⟩ :=
    Files.writeBytes_of_target (Files.target_of_fst htarget) script
  refine ⟨node, hnode, hdata, ?_⟩
  rw [runBundle_site h, hdest, Option.elim_some, hwrite]

theorem runBundle_refused {f : Fault}
    (htarget : (Files.target (scriptTarget w dir name) w.toSite).1 = .error f) :
    (runBundle p w).2.toSite = w.toSite := by
  rw [runBundle_site h, hdest, Option.elim_some,
    Files.writeBytes_of_error (Files.target_of_fst htarget)]

end Run

/-- The name with the time `c` is that of a file with other bytes than those of
the script. -/
def SpareTaken (w : World) (dir name : String) (script : List UInt8)
    (c : Float) : Prop :=
  ∃ node, Files.node? w (Path.join dir (spareName c name)) = some node ∧
    node.isDir = false ∧ node.data ≠ script

/-- The name of the entry is taken, or can be given to a new file. -/
def Usable (w : World) (dir name : String) : Prop :=
  Files.exist w (Path.join dir name) = true ∨
    ∃ place, (Files.target (Path.join dir name) w.toSite).1 = .ok place

/-- Running the bundle again and again at the time `c` writes over a file with
other bytes. -/
def Endangers (p : String) (fields : List (String × Value))
    (script : List UInt8) (w : World) (c : Float) : Prop :=
  ∃ dir name, destination p (.record fields) w = some (dir, name) ∧
    Usable w dir name ∧ SpareTaken w dir name script c

/-- The world later on: all directories and files are still there. -/
structure Since (w u : World) : Prop where
  disk : w.disk.Grows u.disk
  seat : u.seat = w.seat

section Later

variable (h : Installed p fields script w) (hu : Since w u)
include h hu

theorem Installed.since : Installed p fields script u := by
  obtain ⟨bytes, hread, hunpack⟩ := h.read
  exact ⟨⟨bytes, Files.readBytes_of_grows hread hu.disk hu.seat,
    hunpack⟩, h.type⟩

/-- **A run of a bundle that `Endangers` no file of the world it started from
only adds a file.** -/
theorem runBundle_grows (hsafe : ∀ dir name, destination p (.record fields) w =
    some (dir, name) →
    ¬ SpareTaken w dir name script u.host.clock) :
      Since w (runBundle p u).2 := by
  have hinstalled := h.since hu
  have hsame := destination_of_seat fields p hu.seat
  cases hdest : destination p (.record fields) w with
  | none =>
    have hsite : (runBundle p u).2.toSite = u.toSite := by
      rw [runBundle_site hinstalled, hsame, hdest]
      rfl
    exact ⟨by rw [hsite]; exact hu.disk, by rw [hsite]; exact hu.seat⟩
  | some dest =>
    obtain ⟨dir, name⟩ := dest
    rw [hdest] at hsame
    cases htarget : (Files.target (scriptTarget u dir name) u.toSite).1 with
    | error f =>
      have hsite := runBundle_refused hinstalled hsame htarget
      exact ⟨by rw [hsite]; exact hu.disk, by rw [hsite]; exact hu.seat⟩
    | ok place =>
      obtain ⟨node, hnode, hdata, hsite⟩ :=
        runBundle_put hinstalled hsame htarget
      have hfound := Files.target_of_fst htarget
      obtain ⟨-, hp, hlocate, hplace⟩ := Files.ok_of_target hfound
      refine ⟨?_, by rw [hsite]; exact hu.seat⟩
      rw [hsite]
      refine hu.disk.put hnode hplace fun data hbytes => ?_
      rw [hdata]
      cases hexist : Files.exist u (Path.join dir name) with
      | false =>
        -- the name of the entry is free, and so is its place, now as at the
        -- start
        rw [scriptTarget, hexist, if_neg Bool.false_ne_true] at hfound
        have hnone := Files.get?_of_not_exist hfound hexist
        have hstill := hu.disk.files place data hbytes
        rw [Disk.bytesAt, hnone] at hstill
        cases hstill
      | true =>
        rw [scriptTarget, hexist, if_pos rfl] at hp hlocate
        obtain ⟨old, hold, hfile, rfl⟩ := Disk.bytesAt_eq_some_iff.1 hbytes
        rw [hu.seat] at hlocate
        have hnode? : Files.node? w
            (Path.join dir (spareName u.host.clock name)) = some old :=
          (Files.node?_eq_some_iff hfile).2 ⟨hp, place,
            hu.disk.locate_iff.1 hlocate, hold⟩
        by_contra hother
        exact hsafe dir name hdest ⟨old, hnode?, hfile, hother⟩

variable (hdest : destination p (.record fields) w = some (dir, name))
include hdest

/-- **If the name of the entry is taken, a run writes over the file that has the
name with the time.** -/
theorem runBundle_overwrites
    (hexist : Files.exist u (Path.join dir name) = true)
    (hfile : node.isDir = false)
    (hnode : Files.node? w (Path.join dir (spareName u.host.clock name)) =
      some node) :
    ∃ place, w.disk.bytesAt place = some node.data ∧
      (runBundle p u).2.disk.bytesAt place = some script := by
  obtain ⟨hp, place, hlocate, hplace⟩ := (Files.node?_eq_some_iff hfile).1 hnode
  have hbytes : w.disk.bytesAt place = some node.data :=
    Disk.bytesAt_eq_some_iff.2 ⟨node, hplace, hfile, rfl⟩
  obtain ⟨old, hold, holdFile, -⟩ :=
    Disk.bytesAt_eq_some_iff.1 (hu.disk.files place node.data hbytes)
  have hlocate' : u.disk.locate u.seat
      (Path.join dir (spareName u.host.clock name)) = .ok (.at_ place) := by
    rw [hu.seat]
    exact hu.disk.locate_iff.2 hlocate
  have htarget : (Files.target (scriptTarget u dir name) u.toSite).1 =
      .ok place := by
    rw [scriptTarget, hexist, if_pos rfl,
      Files.target_of_locate hp hlocate' hold holdFile]
  obtain ⟨new, hnew, hdata, hsite⟩ :=
    runBundle_put (h.since hu)
      ((destination_of_seat fields p hu.seat).trans hdest) htarget
  refine ⟨place, hbytes, ?_⟩
  rw [hsite]
  exact Disk.bytesAt_eq_some_iff.2 ⟨new, Disk.get?_put_self _ _ _, hnew, hdata⟩

theorem runBundle_makes_entry
    (hmissing : Files.exist u (Path.join dir name) = false)
    (htarget : (Files.target (Path.join dir name) u.toSite).1 = .ok place) :
    Since w (runBundle p u).2 ∧
    Files.exist (runBundle p u).2 (Path.join dir name) = true := by
  have hfound := Files.target_of_fst htarget
  obtain ⟨-, hp, hlocate, hplace⟩ := Files.ok_of_target hfound
  have hfree := Files.get?_of_not_exist hfound hmissing
  have hscript : (Files.target (scriptTarget u dir name) u.toSite).1 =
      .ok place := by
    rw [scriptTarget, hmissing, if_neg Bool.false_ne_true, htarget]
  obtain ⟨node, hnode, hdata, hsite⟩ :=
    runBundle_put (h.since hu)
      ((destination_of_seat fields p hu.seat).trans hdest) hscript
  refine ⟨⟨?_, ?_⟩, ?_⟩
  · rw [hsite]
    refine hu.disk.put hnode hplace fun data hbytes => ?_
    have hstill := hu.disk.files place data hbytes
    rw [Disk.bytesAt, hfree] at hstill
    cases hstill
  · rw [hsite]
    exact hu.seat
  · have hfind : (u.disk.put place node).find u.seat (Path.join dir name) =
        .ok (place, node) :=
      Disk.find_put hplace node hlocate
    rw [hsite, Files.exist, Files.node?, hp, if_neg Bool.false_ne_true, hfind]
    rfl

end Later

/-! ## Many runs -/

def atTime (c : Float) (w : World) : World :=
  { w with host := { w.host with clock := c } }

/-- Runs a bundle at some times one after the other (`atTime`), whatever comes
of each run. -/
def runsAt (p : String) : List Float → World → World
  | [], w => w
  | c :: times, w => runsAt p times (runBundle p (atTime c w)).2

theorem Since.atTime (h : Since w u) (c : Float) :
    Since w (atTime c u) := ⟨h.disk, h.seat⟩

theorem Since.refl (w : World) : Since w w := ⟨Disk.Grows.refl _, rfl⟩

section Runs

variable (h : Installed p fields script w)
include h

/-- `runsAt` keeps all files if no name with one of the times is that of a file
with other bytes. -/
theorem runsAt_grows {times : List Float} (hsafe : ∀ c ∈ times, ∀ dir name,
    destination p (.record fields) w = some (dir, name) →
    ¬ SpareTaken w dir name script c) {u : World}
    (hu : Since w u) : Since w (runsAt p times u) := by
  induction times generalizing u with
  | nil => exact hu
  | cons c times ih =>
    have hnext := runBundle_grows h (hu.atTime c) (hsafe c List.mem_cons_self)
    exact ih (fun c hc => hsafe c (List.mem_cons_of_mem _ hc)) hnext

/-- `runsAt` does nothing if the name of the entry is not `Usable`. -/
theorem runsAt_of_not_usable
    (hdest : destination p (.record fields) w = some (dir, name))
    (hunusable : ¬ Usable w dir name) (times : List Float) {u : World}
    (hdisk : u.disk = w.disk) (hseat : u.seat = w.seat) :
    (runsAt p times u).disk = w.disk := by
  induction times generalizing u with
  | nil => exact hdisk
  | cons c times ih =>
    have hnow : Since w (atTime c u) := by
      refine ⟨?_, hseat⟩
      show w.disk.Grows u.disk
      rw [hdisk]
      exact Disk.Grows.refl _
    have hmissing : Files.exist (atTime c u) (Path.join dir name) = false := by
      rw [Files.exist_of_disk (t := (atTime c u).toSite) hdisk hseat,
        Bool.eq_false_iff]
      exact fun hexist => hunusable (.inl hexist)
    have hdest' : destination p (.record fields) (atTime c u) =
        some (dir, name) :=
      (destination_of_seat fields p hnow.seat).trans hdest
    have hsite : (runBundle p (atTime c u)).2.toSite = (atTime c u).toSite := by
      cases hplace : (Files.target (Path.join dir name) w.toSite).1 with
      | ok place => exact absurd (.inr ⟨place, hplace⟩) hunusable
      | error f =>
        refine runBundle_refused (h.since hnow) hdest' (f := f) ?_
        rw [scriptTarget, hmissing, if_neg Bool.false_ne_true,
          Files.target_apply _ (t := (atTime c u).toSite) hdisk hseat]
        exact hplace
    exact ih (by rw [hsite]; exact hdisk) (by rw [hsite]; exact hseat)

/-- A file in danger is lost in the first run, or in the second one if the first
one makes the file of the entry. -/
theorem runsAt_loses {c : Float} (hdanger : Endangers p fields script w c) :
    ∃ n place data, w.disk.bytesAt place = some data ∧ data ≠ script ∧
      (runsAt p (List.replicate n c) w).disk.bytesAt place = some script := by
  obtain ⟨dir, name, hdest, husable, node, hnode, hfile, hother⟩ := hdanger
  have hnow := (Since.refl w).atTime c
  have hsame : Files.exist (atTime c w) (Path.join dir name) =
      Files.exist w (Path.join dir name) :=
    Files.exist_of_disk rfl rfl _
  cases hexist : Files.exist w (Path.join dir name) with
  | true =>
    obtain ⟨place, hbytes, hlost⟩ :=
      runBundle_overwrites h hnow hdest (hsame.trans hexist) hfile hnode
    refine ⟨1, place, node.data, hbytes, hother, ?_⟩
    simpa only [List.replicate, runsAt] using hlost
  | false =>
    obtain ⟨free, hfree⟩ := husable.resolve_left (by rw [hexist]; decide)
    have htarget : (Files.target (Path.join dir name) (atTime c w).toSite).1 =
        .ok free := by
      rw [Files.target_apply _ (t := (atTime c w).toSite)
        (s := w.toSite) rfl rfl]
      exact hfree
    obtain ⟨hsince, hmade⟩ :=
      runBundle_makes_entry h hnow hdest (hsame.trans hexist) htarget
    have hmade' :=
      (Files.exist_of_disk (t := (atTime c (runBundle p (atTime c w)).2).toSite)
        rfl rfl _).trans hmade
    obtain ⟨place, hbytes, hlost⟩ :=
      runBundle_overwrites h (hsince.atTime c) hdest hmade' hfile hnode
    refine ⟨2, place, node.data, hbytes, hother, ?_⟩
    simpa only [List.replicate, runsAt] using hlost

private theorem runBundle_frame : ∃ place, ∀ other, other ≠ place →
    (runBundle p w).2.disk.get? other = w.disk.get? other := by
  cases hdest : destination p (.record fields) w with
  | none =>
    refine ⟨[], fun other _ => ?_⟩
    rw [runBundle_site h, hdest]
    rfl
  | some dest =>
    obtain ⟨dir, name⟩ := dest
    cases htarget : (Files.target (scriptTarget w dir name) w.toSite).1 with
    | error f =>
      refine ⟨[], fun other _ => ?_⟩
      rw [runBundle_refused h hdest htarget]
    | ok place =>
      obtain ⟨node, -, -, hsite⟩ := runBundle_put h hdest htarget
      refine ⟨place, fun other hother => ?_⟩
      rw [hsite]
      exact Disk.get?_put_of_ne _ hother _

end Runs

/-- **Runs of a bundle at any times keep all files if none of the times
endangers one**, and a time that endangers one loses it when the bundle is run
at that time often enough. Each run touches one place of the disk at most. -/
theorem runs_keep_files_iff {p : String} {fields : List (String × Value)}
    {script : List UInt8} {w : World} (h : Installed p fields script w) :
    (∀ times, (∀ c ∈ times, ¬ Endangers p fields script w c) →
      w.disk.Grows (runsAt p times w).disk) ∧
      (∀ c, (∀ n, w.disk.Grows (runsAt p (List.replicate n c) w).disk) ↔
        ¬ Endangers p fields script w c) ∧
      ∃ place, ∀ other, other ≠ place →
        (runBundle p w).2.disk.get? other = w.disk.get? other := by
  have hkeep : ∀ times, (∀ c ∈ times, ¬ Endangers p fields script w c) →
      w.disk.Grows (runsAt p times w).disk := by
    intro times hsafe
    by_cases hblocked : ∃ dir name,
      destination p (.record fields) w = some (dir, name) ∧ ¬ Usable w dir name
    · obtain ⟨dir, name, hdest, hunusable⟩ := hblocked
      rw [runsAt_of_not_usable h hdest hunusable times rfl rfl]
      exact Disk.Grows.refl _
    · refine (runsAt_grows h (fun c hc dir name hdest htaken => ?_)
        (Since.refl w)).disk
      have husable : Usable w dir name := by
        by_contra hunusable
        exact hblocked ⟨dir, name, hdest, hunusable⟩
      exact hsafe c hc ⟨dir, name, hdest, husable, htaken⟩
  refine ⟨hkeep, fun c => ⟨fun hgrows hdanger => ?_,
    fun hsafe n => hkeep _ fun c' hc' => ?_⟩, runBundle_frame h⟩
  · obtain ⟨n, place, data, hbytes, hother, hlost⟩ := runsAt_loses h hdanger
    have hkept := (hgrows n).files place data hbytes
    rw [hlost] at hkept
    exact hother (Option.some.inj hkept).symm
  · rw [List.eq_of_mem_replicate hc']
    exact hsafe

/-- The manifest of `/x.py`, a quarter of a second after a full second. -/
def takenManifest : Bundle.Manifest :=
  Bundle.Manifest.ofPath "/x.py" quarterPast (versionText (3, 11))

/-- A world with a script `/x.py`, a bundle `/x.le` of another one that had its
name, and perhaps a third file. -/
def takenWorld (third : Disk) : World :=
  { (default : World) with
    disk := [([], ⟨.dir, 0o755, ⟨0, 0⟩⟩),
      (["x.py"], ⟨.file (utf8 "print(2)\n"), 0o644, ⟨0, 0⟩⟩),
      (["x.le"], ⟨.file (Bundle.pack .stored takenManifest (utf8 "print(1)\n")),
        0o644, ⟨0, 0⟩⟩)] ++ third
    host := { (default : Host) with clock := quarterPast } }

theorem installed_takenWorld (third : Disk) : Installed "/x.le"
    takenManifest.fields (utf8 "print(1)\n") (takenWorld third) := by
  have hlength :=
    Bundle.length_manifest_le (p := "/x.py") (by decide) quarterPast (3, 11)
  refine ⟨⟨_, ?_,
    Bundle.unpack_pack .stored hlength readDocument_quarterPast _⟩, rfl⟩
  simp only [Files.readBytes, Files.find, Files.checkPath,
    String.contains_char_eq]
  rfl

theorem destination_takenWorld (third : Disk) : destination "/x.le"
    (.record takenManifest.fields) (takenWorld third) =
      some ("/", "x.py") := rfl

/-- Any number of runs within a second, with the name of the entry taken. -/
theorem runs_keep_files_iff_repeated :
    Files.exist (takenWorld []) "/x.py" = true ∧
    ∀ n, (takenWorld []).disk.Grows
      (runsAt "/x.le" (List.replicate n quarterPast) (takenWorld [])).disk := by
  have hexist : Files.exist (takenWorld []) "/x.py" = true := by
    simp only [Files.exist, Files.node?, String.contains_char_eq]
    rfl
  refine ⟨hexist,
    ((runs_keep_files_iff (installed_takenWorld [])).2.1 quarterPast).2 ?_⟩
  rintro ⟨dir, name, hdest, -, node, hnode, -⟩
  rw [destination_takenWorld] at hdest
  cases hdest
  have hfree : Files.node? (takenWorld [])
      (Path.join "/" (spareName quarterPast "x.py")) = none := by
    simp only [Files.node?, String.contains_char_eq]
    rfl
  rw [hfree] at hnode
  cases hnode

/-- A file that has the name with the time is written over. -/
theorem runBundle_loses_file :
    (takenWorld [(["x_le_run_1700000000.py"],
      ⟨.file (utf8 "precious"), 0o644, ⟨0, 0⟩⟩)]).disk.bytesAt
        ["x_le_run_1700000000.py"] = some (utf8 "precious") ∧
      (runBundle "/x.le" (takenWorld
        [(["x_le_run_1700000000.py"],
          ⟨.file (utf8 "precious"), 0o644, ⟨0, 0⟩⟩)])).2.disk.bytesAt
          ["x_le_run_1700000000.py"] = some (utf8 "print(1)\n") := by
  refine ⟨rfl, ?_⟩
  have hsite := runBundle_site (installed_takenWorld
    [(["x_le_run_1700000000.py"], ⟨.file (utf8 "precious"), 0o644, ⟨0, 0⟩⟩)])
  rw [destination_takenWorld] at hsite
  rw [hsite]
  simp only [Option.elim_some, scriptTarget, Files.exist, Files.node?,
    Files.writeBytes, Files.target, Files.checkPath, String.contains_char_eq]
  rfl

end App

end TaskShell
