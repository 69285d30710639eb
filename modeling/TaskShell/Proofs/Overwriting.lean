import TaskShell.Proofs.Launching
import TaskShell.Proofs.ScriptLookup

/-!
# What bundling a script writes over

The bundle of a script is written next to it, under its name with another
ending. The lookup gives a path in normal form, so a path is the text of the
place it leads to, and two paths that differ lead to two places. The path of the
bundle differs from that of the script unless the script has the ending of
bundles already; then the bundle is written over the script. A `Disk` has no
links, so that no two names stand for one file.
-/

namespace TaskShell

open Act Text List

namespace Path

/-! ## Endings -/

theorem splitBase_append (base : List Char) :
    (splitBase base).1 ++ (splitBase base).2 = base := by
  unfold splitBase
  rw [span_eq_takeWhile_dropWhile]
  cases hdrop : base.reverse.dropWhile (· != '.') with
  | nil => exact append_nil _
  | cons dot stem =>
    dsimp only
    split
    · exact append_nil _
    · have hall :=
        takeWhile_append_dropWhile (p := (· != '.')) (l := base.reverse)
      rw [hdrop] at hall
      have hbase := congrArg List.reverse hall
      rw [reverse_reverse, reverse_append, reverse_cons, append_assoc] at hbase
      exact hbase

def stemOf (name : String) : String := String.ofList (splitBase name.toList).1

def endingOf (name : String) : String := String.ofList (splitBase name.toList).2

theorem stemOf_append_endingOf (name : String) :
    stemOf name ++ endingOf name = name := by
  rw [stemOf, endingOf, ← String.ofList_append, splitBase_append,
    String.ofList_toList]

/-- `splitExt` cuts a path within its last name. -/
theorem splitExt_snoc (before : String) {last : String}
    (h : '/' ∉ last.toList) :
    splitExt (before ++ "/" ++ last) =
      (before ++ "/" ++ stemOf last, endingOf last) := by
  have hchars : (before ++ "/" ++ last).toList.reverse =
      last.toList.reverse ++ '/' :: before.toList.reverse := by
    simp
  have hkeep : ∀ c ∈ last.toList.reverse, (c != '/') = true := by
    intro c hc
    rw [bne_iff_ne]
    rintro rfl
    exact h (mem_reverse.1 hc)
  have hbase : baseChars (before ++ "/" ++ last).toList = last.toList := by
    rw [baseChars, hchars, takeWhile_append_of_pos hkeep]
    simp
  have hhead : headChars (before ++ "/" ++ last).toList =
      (before ++ "/").toList := by
    rw [headChars, hchars, dropWhile_append_of_pos hkeep]
    simp
  unfold splitExt
  dsimp only
  rw [hbase, hhead, String.ofList_append, String.ofList_toList]
  rfl

theorem IsPart.bundled {name : String} (h : IsPart name) :
    IsPart (stemOf name ++ ".le") := by
  have hends : ∀ other : String, stemOf name ++ ".le" = other →
      other.toList.getLast? = some 'e' := by
    rintro other rfl
    simp
  refine ⟨?_, ?_, ?_, ?_⟩
  · rw [Bool.eq_false_iff, ne_eq, String.isEmpty_iff]
    intro hempty
    exact absurd (hends _ hempty) (by decide)
  · rw [beq_eq_false_iff_ne]
    intro hdot
    exact absurd (hends _ hdot) (by decide)
  · rw [beq_eq_false_iff_ne]
    intro hparent
    exact absurd (hends _ hparent) (by decide)
  · intro hslash
    rw [String.toList_append, mem_append] at hslash
    rcases hslash with hslash | hslash
    · refine h.slash ?_
      rw [← stemOf_append_endingOf name, String.toList_append]
      exact mem_append_left _ hslash
    · exact absurd hslash (by decide)

theorem stemOf_append_eq_iff (name : String) :
    stemOf name ++ ".le" = name ↔ endingOf name = ".le" := by
  constructor
  · intro h
    have hsplit :=
      congrArg String.toList (h.trans (stemOf_append_endingOf name).symm)
    rw [String.toList_append, String.toList_append] at hsplit
    exact String.toList_inj.1 (append_cancel_left hsplit).symm
  · intro h
    rw [← h, stemOf_append_endingOf]

end Path

namespace Disk

/-! ## Places of normal paths -/

/-- **A path that `IsNormal` leads to the place that it spells**, wherever the
working directory is. -/
theorem place_of_normal {d : Disk} {seat : Seat} {root : String}
    {names : List String} {place : Place}
    (hroot : root = "/" ∨ root = "//")
    (hnames : ∀ name ∈ names, Path.IsPart name)
    (h : d.locate seat (root ++ "/".intercalate names) = .ok (.at_ place)) :
    place = names ∧ d.Reached place := by
  obtain ⟨habsolute, -, hstack⟩ := Path.parts_of_normal hroot hnames
  have hwalk := walk_of_locate h
  rw [start, steps, habsolute, if_pos rfl, if_pos rfl] at hwalk
  obtain ⟨r, hr, hreached, hfold⟩ := walk_normal reached_nil
    (fun name hname =>
      Path.not_mem_of_mem_components (mem_of_mem_drop hname)) hwalk
  cases hr
  -- the first component of an absolute path is empty and leaves the stack as it
  -- is
  obtain ⟨rest, hrest⟩ := Path.isAbsolute_iff.1 habsolute
  rw [hrest, Path.components_absolute] at hstack hfold
  exact ⟨reverse_inj.1 (hfold.trans hstack), hreached⟩

end Disk

namespace App

/-! ## Bundling a script -/

/-- `resolve` gives a path in normal form. -/
theorem isNormal_of_resolve {p script : String} {s t : Site}
    (h : resolve p s = (.ok script, t)) :
    Path.IsNormal script := by
  unfold resolve at h
  rw [get_bind_apply] at h
  split at h
  · next hdirect =>
    obtain ⟨rfl, -⟩ := ok_of_pure h
    exact Path.isNormal_normalize (Bool.and_eq_true_iff.1 hdirect).1
  · obtain ⟨cwd, u, hcwd, h⟩ := ok_of_bind h
    have hdir : Path.isAbsolute cwd = true := by
      unfold Files.workingDir at hcwd
      rw [get_bind_apply] at hcwd
      split at hcwd
      · cases hcwd
      · obtain ⟨rfl, -⟩ := ok_of_pure hcwd
        exact Disk.isAbsolute_placeText _
    cases hfound : (candidates cwd s.host.appDir p).find? (Files.isFile s) with
    | none =>
      rw [hfound] at h
      cases h
    | some found =>
      rw [hfound] at h
      obtain ⟨rfl, -⟩ := ok_of_pure h
      exact Path.isNormal_normalize (Path.isAbsolute_join hdir found)

/-- `bundlePath` stays in the directory of the script; the ending of the script
is that of its last name. -/
theorem bundlePath_snoc {root : String} (hroot : root = "/" ∨ root = "//")
    (init : List String) {base : String} (h : Path.IsPart base) :
    bundlePath (root ++ "/".intercalate (init ++ [base])) =
        root ++ "/".intercalate (init ++ [Path.stemOf base ++ ".le"]) ∧
      (Path.splitExt (root ++ "/".intercalate (init ++ [base]))).2 =
        Path.endingOf base := by
  obtain ⟨before, hbefore⟩ := Path.intercalate_snoc hroot init
  rw [bundlePath, hbefore, hbefore, Path.splitExt_snoc before h.slash]
  exact ⟨String.append_assoc, rfl⟩

/-- **`bundlePath` leads to the place of the script just if the script ends like
a bundle.** -/
theorem place_bundlePath {d : Disk} {seat : Seat} {script : String}
    {source : Place}
    (hnormal : Path.IsNormal script)
    (hsource : d.locate seat script = .ok (.at_ source))
    (hfile : d.isDir source = false) :
    Path.isAbsolute (bundlePath script) = true ∧
    Path.normalize (bundlePath script) = bundlePath script ∧
      (bundlePath script = script ↔ (Path.splitExt script).2 = ".le") ∧
      ∀ place, d.locate seat (bundlePath script) = .ok (.at_ place) →
        (place = source ↔ (Path.splitExt script).2 = ".le") := by
  obtain ⟨root, names, hroot, rfl, hnames⟩ := hnormal
  obtain ⟨rfl, -⟩ := Disk.place_of_normal hroot hnames hsource
  rcases eq_nil_or_concat source with rfl | ⟨init, base, rfl⟩
  · -- the root is a directory
    have hasks : Files.asksDir (root ++ "/".intercalate []) = true := by
      rcases hroot with rfl | rfl <;> decide
    rw [Disk.isDir_of_asksDir hasks hsource] at hfile
    cases hfile
  · rw [concat_eq_append] at *
    have hbase : Path.IsPart base :=
      hnames base (mem_append_right _ mem_cons_self)
    have hbundled : ∀ name ∈ init ++ [Path.stemOf base ++ ".le"],
        Path.IsPart name := by
      intro name hname
      rcases mem_append.1 hname with hname | hname
      · exact hnames name (mem_append_left _ hname)
      · rw [mem_singleton.1 hname]
        exact hbase.bundled
    obtain ⟨hpath, hending⟩ := bundlePath_snoc hroot init hbase
    rw [hpath, hending, ← Path.stemOf_append_eq_iff]
    obtain ⟨habsolute, hnormalize⟩ :=
      Path.IsNormal.normalize_eq ⟨root, _, hroot, rfl, hbundled⟩
    refine ⟨habsolute, hnormalize, ?_, ?_⟩
    · obtain ⟨before, hbefore⟩ := Path.intercalate_snoc hroot init
      rw [hbefore, hbefore]
      exact String.append_right_inj _
    · intro place hplace
      obtain ⟨rfl, -⟩ := Disk.place_of_normal hroot hbundled hplace
      rw [append_cancel_left_eq, singleton_inj]

/-! ## Failing -/

theorem unchanged_bind {σ α β : Type} {x : Doing σ α} {f : α → Doing σ β}
    {s t : σ} {e : Fault} (hx : (x s).2 = s)
    (hf : ∀ a, f a s = (.error e, t) → t = s)
    (h : (x >>= f) s = (.error e, t)) : t = s := by
  rcases bind_cases x f s with ⟨a, u, hok, hbind⟩ | ⟨e', u, herror, hbind⟩
  · rw [hok] at hx
    obtain rfl : u = s := hx
    exact hf a (hbind.symm.trans h)
  · rw [herror] at hx
    rw [hbind] at h
    cases h
    exact hx

theorem lift_snd {α : Type} {job : Job α} {w : World}
    (h : (job w.toSite).2 = w.toSite) :
    ((liftM job : Act α) w).2 = w := by
  rw [lift_apply, h]

private theorem unchanged_writeBytes {p : String}
    {data : List UInt8} {s t : Site}
    {f : Fault} (h : Files.writeBytes p data s = (.error f, t)) : t = s := by
  have htarget := Files.target_apply p (s := s) (t := s) rfl rfl
  cases hfst : (Files.target p s).1 with
  | error g =>
    rw [hfst] at htarget
    rw [Files.writeBytes_of_error htarget] at h
    cases h
    rfl
  | ok place =>
    rw [hfst] at htarget
    obtain ⟨node, -, -, hwrite⟩ := Files.writeBytes_of_target htarget data
    rw [hwrite] at h
    cases h

/-- **`compile` changes nothing if it fails.** -/
theorem unchanged_compile {p : String} {out : Option String} {w u : World}
    {f : Fault} (h : compile p out w = (.error f, u)) : u = w := by
  refine unchanged_bind (lift_snd (resolve_snd p _)) (fun script h => ?_) h
  refine unchanged_bind (lift_snd (Files.readBytes_snd script _))
    (fun data h => ?_) h
  rw [get_bind_apply] at h
  refine unchanged_bind (congrArg Prod.snd (absolutePath_apply _ w))
    (fun target h => ?_) h
  rcases bind_cases _ _ w with ⟨_, v, -, hbind⟩ | ⟨g, v, herror, hbind⟩
  · rw [hbind] at h
    cases h
  · rw [hbind] at h
    cases h
    rw [lift_apply] at herror
    obtain ⟨hfst, rfl⟩ := Prod.mk.inj herror
    exact congrArg (fun s => { w with toSite := s })
      (unchanged_writeBytes (Prod.ext hfst rfl))

/-- **Bundling a script touches its bundle only, and this is the script itself
just if the script has the ending of bundles already.** It reads the script that
the lookup gives and puts the bundle at the place to which the path that it
gives leads; everything else is as it was. For any other ending this is another
place, so that the script is still there; a script that ends with `.le` has its
bundle written over it. Bundling that fails changes nothing. -/
theorem compile_keeps_source_iff (p : String) (w : World) :
    (∀ o u, compile p none w = (.ok o, u) → ∃ script source place data,
      resolve p w.toSite = (.ok script, w.toSite) ∧
      w.disk.locate w.seat script = .ok (.at_ source) ∧
      w.disk.bytesAt source = some data ∧
      w.disk.locate w.seat o = .ok (.at_ place) ∧
      u = { w with disk := u.disk } ∧
      (∀ q, q ≠ place → u.disk.get? q = w.disk.get? q) ∧
      u.disk.bytesAt place =
        some (Bundle.pack w.host.packer (manifestOf script w) data) ∧
      (o = script ↔ (Path.splitExt script).2 = ".le") ∧
      (place = source ↔ (Path.splitExt script).2 = ".le") ∧
      ((Path.splitExt script).2 ≠ ".le" →
        u.disk.get? source = w.disk.get? source) ∧
      ((Path.splitExt script).2 = ".le" →
        u.disk.bytesAt source =
          some (Bundle.pack w.host.packer (manifestOf script w) data))) ∧
    (∀ f u, compile p none w = (.error f, u) → u = w) := by
  refine ⟨fun o u h => ?_, fun f u h => unchanged_compile h⟩
  obtain ⟨script, data, hresolve, hread, hwrite, hworld, hout⟩ :=
    ok_of_compile h
  obtain ⟨-, -, source, node, hfind, hfile, rfl⟩ := Files.ok_of_readBytes hread
  obtain ⟨hsource, hnode⟩ := (Disk.find_eq_ok_iff hfile).1 hfind
  obtain ⟨place, s, htarget, hput⟩ := ok_of_bind hwrite
  obtain ⟨rfl, -, hplace, -⟩ := Files.ok_of_target htarget
  obtain ⟨bundle, hbundle, hbytes, hwritten⟩ := Files.writeBytes_of_target
    htarget (Bundle.pack w.host.packer (manifestOf script w) node.data)
  rw [hwrite] at hwritten
  have hsite := (Prod.mk.inj hwritten).2
  have hdisk : u.disk = w.disk.put place bundle := congrArg Site.disk hsite
  have hsourceFile : w.disk.isDir source = false :=
    (Disk.isDir_of_get? hnode).trans hfile
  obtain ⟨habsolute, hnormalize, hpath, hsame⟩ :=
    place_bundlePath (isNormal_of_resolve hresolve) hsource hsourceFile
  obtain rfl : bundlePath script = o := by
    have hgiven := hout rfl
    rw [absolutePath_apply, if_pos habsolute, hnormalize] at hgiven
    exact Except.ok.inj (Prod.mk.inj hgiven).1
  have hothers : ∀ q, q ≠ place → u.disk.get? q = w.disk.get? q := by
    intro q hq
    rw [hdisk, Disk.get?_put_of_ne w.disk hq]
  have hstored : u.disk.bytesAt place =
      some (Bundle.pack w.host.packer (manifestOf script w) node.data) := by
    rw [hdisk]
    exact Disk.bytesAt_eq_some_iff.2 ⟨bundle, Disk.get?_put_self _ _ _,
      hbundle, hbytes⟩
  refine ⟨script, source, place, node.data, hresolve, hsource,
    Disk.bytesAt_eq_some_iff.2 ⟨node, hnode, hfile, rfl⟩, hplace, ?_, hothers,
    hstored, hpath, hsame place hplace, ?_, ?_⟩
  · rw [hworld, hsite]
  · intro hending
    exact hothers source fun heq => hending ((hsame place hplace).1 heq.symm)
  · intro hending
    rw [← (hsame place hplace).2 hending]
    exact hstored

/-- A script of another language is kept beside its bundle, and a path that
leads nowhere is refused. -/
theorem compile_keeps_source_python :
    (compile "/ß\".Py" none scriptWorld).1 = .ok "/ß\".le" ∧
      (compile "/ß\".Py" none scriptWorld).2.disk.bytesAt ["ß\".Py"] =
        some (utf8 "print('ß')\n") ∧
      (compile "/ß" none scriptWorld).1 = .error (.noFile "/ß") ∧
      (compile "/ß" none scriptWorld).2 = scriptWorld := by
  obtain ⟨hcompile, hscript⟩ := compile_scriptWorld
  have hmissing :
      (compile "/ß" none scriptWorld).1 = .error (.noFile "/ß") := by
    simp only [compile, resolve, candidates, placesOf, scriptEndings,
      flatMap_cons, flatMap_nil, cons_append, nil_append, find?_cons, find?_nil,
      Files.isFile, Files.node?, String.contains_char_eq]
    rfl
  obtain ⟨script, source, place, data, hresolve, hsource, -, -, -, -, -, -,
      -, hkept, -⟩ :=
    (compile_keeps_source_iff "/ß\".Py" scriptWorld).1 _ _
      (Prod.ext hcompile rfl)
  rw [hresolve] at hscript
  obtain rfl := Except.ok.inj hscript
  obtain rfl : ["ß\".Py"] = source := Cursor.at_.inj (Except.ok.inj hsource)
  refine ⟨hcompile, ?_, hmissing,
    (compile_keeps_source_iff "/ß" scriptWorld).2 _ _ (Prod.ext hmissing rfl)⟩
  rw [Disk.bytesAt, hkept (by decide)]
  rfl

/-- A world with a script that ends like a bundle. -/
def sameNameWorld : World :=
  { (default : World) with
    disk := [([], ⟨.dir, 0o755, ⟨0, 0⟩⟩),
      (["x.le"], ⟨.file (utf8 "echo a\n"), 0o644, ⟨0, 0⟩⟩)] }

/-- The script is lost. -/
theorem compile_overwrites_source :
    (compile "/x.le" none sameNameWorld).1 = .ok "/x.le" ∧
      (Files.readBytes "/x.le" sameNameWorld.toSite).1 = .ok (utf8 "echo a\n") ∧
      (Files.readBytes "/x.le"
        (compile "/x.le" none sameNameWorld).2.toSite).1 ≠
        .ok (utf8 "echo a\n") := by
  have hcompile : (compile "/x.le" none sameNameWorld).1 = .ok "/x.le" := by
    simp only [compile, resolve, Files.isFile, Files.node?, Files.readBytes,
      Files.find, Files.checkPath, Files.writeBytes, Files.target,
      String.contains_char_eq]
    rfl
  have hdata : (Files.readBytes "/x.le" sameNameWorld.toSite).1 =
      .ok (utf8 "echo a\n") := by
    simp only [Files.readBytes, Files.find, Files.checkPath,
      String.contains_char_eq]
    rfl
  refine ⟨hcompile, hdata, ?_⟩
  obtain ⟨script, data, -, -, hbytes, -⟩ :=
    bundle_of_compile (Prod.ext hcompile rfl)
  rw [hbytes]
  intro hsame
  -- a bundle begins with its mark
  have hhead : some 76 = (utf8 "echo a\n").head? :=
    congrArg List.head? (Except.ok.inj hsame)
  cases hhead

end App

end TaskShell
