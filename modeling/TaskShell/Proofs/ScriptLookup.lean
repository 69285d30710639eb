import TaskShell.App.Lookup
import TaskShell.Proofs.Directories

/-!
# Where a script is found

A script is looked for at many paths, some of them in normal form and some as
they are written. A path as it is written leads nowhere if something on its way
is missing, while its normal form may have cut that part out; so the normal form
of a path is found whenever the path is, and a path from the working directory
need not be tried once its normal form has been. What decides is then a short
list of paths, and the first of them that leads to a file.

Normal forms never get longer. This matters because a path that is too long is
not followed.
-/

namespace TaskShell

open Act Text List

namespace Path

/-! ## The length of a normal form -/

def span : List String → Nat
  | [] => 0
  | name :: names => (utf8 name).length + 1 + span names

private theorem span_append (names more : List String) :
    span (names ++ more) = span names + span more := by
  induction names with
  | nil => rw [nil_append, span, Nat.zero_add]
  | cons name names ih =>
    rw [cons_append, span, span, ih]
    omega

theorem span_reverse (names : List String) :
    span names.reverse = span names := by
  induction names with
  | nil => rfl
  | cons name names ih =>
    rw [reverse_cons, span_append, ih, span, span, span]
    omega

theorem length_utf8_append (a b : String) :
    (utf8 (a ++ b)).length = (utf8 a).length + (utf8 b).length := by
  unfold utf8 utf8Of
  rw [String.toList_append, flatMap_append, length_append]

theorem length_utf8_intercalate (names : List String) :
    (utf8 ("/".intercalate names)).length = span names - 1 := by
  induction names with
  | nil => rfl
  | cons name names ih =>
    cases names with
    | nil =>
      rw [String.intercalate_singleton]
      rfl
    | cons next names =>
      have hslash : (utf8 "/").length = 1 := rfl
      rw [String.intercalate_cons_cons, length_utf8_append,
        length_utf8_append, ih, hslash]
      simp only [span]
      omega

private theorem span_splitAll (cs : List Char) :
    span ((splitAll '/' cs).map String.ofList) = (utf8Of cs).length + 1 := by
  induction cs with
  | nil => rfl
  | cons c cs ih =>
    have hcons : (utf8Of (c :: cs)).length =
        (utf8OfChar c).length + (utf8Of cs).length := by
      rw [utf8Of, flatMap_cons, length_append]
      rfl
    rw [splitAll, hcons]
    split
    · next hslash =>
      rw [beq_iff_eq.1 hslash, map_cons, span, ih]
      have hempty : (utf8 (String.ofList [])).length = 0 := rfl
      have hone : (utf8OfChar '/').length = 1 := rfl
      omega
    · obtain ⟨piece, rest, hpieces⟩ :=
        exists_cons_of_ne_nil (splitAll_ne_nil '/' cs)
      have hname : (utf8 (String.ofList (c :: piece))).length =
          (utf8OfChar c).length + (utf8 (String.ofList piece)).length := by
        unfold utf8 utf8Of
        rw [String.toList_ofList, String.toList_ofList, flatMap_cons,
          length_append]
      rw [hpieces, map_cons, span] at ih
      rw [hpieces]
      dsimp only
      rw [map_cons, span, hname]
      omega

theorem span_components (p : String) :
    span (components p) = (utf8 p).length + 1 := span_splitAll p.toList

private theorem span_normalStep_le (done : List String) (part : String) :
    span (normalStep true done part) ≤
      span done + ((utf8 part).length + 1) := by
  unfold normalStep
  split
  · omega
  · split
    · next hup =>
      cases done with
      | nil => exact Nat.zero_le _
      | cons top rest =>
        dsimp only
        split
        · rw [span, ← beq_iff_eq.1 hup]
          omega
        · rw [span]
          omega
    · rw [span]
      omega

theorem span_foldl_le (names done : List String) :
    span (names.foldl (normalStep true) done) ≤ span done + span names := by
  induction names generalizing done with
  | nil => exact Nat.le_refl _
  | cons name names ih =>
    have hstep := span_normalStep_le done name
    have hrest := ih (normalStep true done name)
    rw [foldl_cons, span]
    omega

theorem rootOf_of_not_isAbsolute {rest : String} (h : isAbsolute rest = false) :
    rootOf ("/" ++ rest) = "/" ∧ rootOf ("//" ++ rest) = "//" := by
  have hslash :
      ∀ cs : List Char, ('/' :: cs).isPrefixOf rest.toList = false := by
    intro cs
    rw [isAbsolute, startsWith, ← Bool.not_eq_true, isPrefixOf_iff_prefix] at h
    rw [← Bool.not_eq_true, isPrefixOf_iff_prefix]
    exact fun hprefix => h ((prefix_append ['/'] cs).trans hprefix)
  unfold rootOf startsWith
  simp only [String.toList_append]
  constructor
  · show (if ('/' :: ['/']).isPrefixOf rest.toList then "/"
      else if ('/' :: []).isPrefixOf rest.toList then "//"
      else "/") = "/"
    rw [hslash, hslash]
    rfl
  · show (if ('/' :: []).isPrefixOf rest.toList then "/" else "//") = "//"
    rw [hslash]
    rfl

private theorem exists_behind_root {p : String} (h : isAbsolute p = true) :
    ∃ rest, (utf8 (rootOf p)).length + (utf8 rest).length ≤ (utf8 p).length ∧
      (components p).foldl (normalStep true) [] =
        (components rest).foldl (normalStep true) [] := by
  obtain ⟨rest, rfl⟩ := isAbsolute_iff.1 h
  have hone : (utf8 "/").length = 1 := rfl
  have htwo : (utf8 "//").length = 2 := rfl
  cases hdouble : isAbsolute rest with
  | true =>
    obtain ⟨more, rfl⟩ := isAbsolute_iff.1 hdouble
    refine ⟨more, ?_, by rw [components_absolute, components_absolute]; rfl⟩
    rw [length_utf8_append, length_utf8_append, hone]
    rcases Disk.rootOf_of_isAbsolute h with hroot | hroot <;>
      rw [hroot] <;> omega
  | false =>
    refine ⟨rest, ?_, by rw [components_absolute]; rfl⟩
    have hsplit := length_utf8_append "/" rest
    rw [(rootOf_of_not_isAbsolute hdouble).1]
    omega

/-- **`normalize` never makes a path longer.** -/
theorem length_normalize_le {p : String} (h : isAbsolute p = true) :
    (utf8 (normalize p)).length ≤ (utf8 p).length := by
  obtain ⟨rest, hlength, hstack⟩ := exists_behind_root h
  have hspan := span_foldl_le (components rest) []
  rw [span_components, span] at hspan
  have hroot : 1 ≤ (utf8 (rootOf p)).length := by
    rcases Disk.rootOf_of_isAbsolute h with hroot | hroot <;>
      rw [hroot] <;> decide
  rw [Disk.normalize_of_isAbsolute h, length_utf8_append,
    length_utf8_intercalate, span_reverse, hstack]
  omega

/-- An absolute path in normal form: one slash, or exactly two, and then names
with single slashes between them, none of which is empty or stands for a
directory itself or its parent. -/
def IsNormal (p : String) : Prop :=
  ∃ root names, (root = "/" ∨ root = "//") ∧ p = root ++ "/".intercalate names ∧
    ∀ name ∈ names, IsPart name

theorem isAbsolute_intercalate {names : List String}
    (h : ∀ name ∈ names, IsPart name) :
    isAbsolute ("/".intercalate names) = false := by
  rw [← Bool.not_eq_true]
  intro habsolute
  obtain ⟨rest, hrest⟩ := isAbsolute_iff.1 habsolute
  -- the first component of a path from the root is empty
  have hparts := components_absolute rest
  rw [← hrest] at hparts
  cases names with
  | nil =>
    rw [String.intercalate_nil] at habsolute
    cases habsolute
  | cons name names =>
    rw [components_intercalate (cons_ne_nil _ _) fun n hn => (h n hn).slash]
      at hparts
    have hempty := (h name mem_cons_self).nonempty
    rw [(List.cons.inj hparts).1] at hempty
    cases hempty

private theorem isPart_of_mem_normalStep {done : List String}
    {part name : String} (hdone : ∀ n ∈ done, IsPart n)
    (hslash : '/' ∉ part.toList) (h : name ∈ normalStep true done part) :
    IsPart name := by
  unfold normalStep at h
  split at h
  · exact hdone name h
  · next hstay =>
    split at h
    · cases done with
      | nil => cases h
      | cons top rest =>
        dsimp only at h
        rw [(hdone top mem_cons_self).parent, if_neg Bool.false_ne_true] at h
        exact hdone name (mem_cons_of_mem top h)
    · next hup =>
      simp only [Bool.or_eq_true, not_or, Bool.not_eq_true] at hstay
      rcases mem_cons.1 h with rfl | h
      · exact ⟨hstay.1, hstay.2, Bool.eq_false_iff.2 hup, hslash⟩
      · exact hdone name h

private theorem isPart_of_mem_foldl {names done : List String}
    (hdone : ∀ n ∈ done, IsPart n) (hslash : ∀ n ∈ names, '/' ∉ n.toList) :
    ∀ name ∈ names.foldl (normalStep true) done, IsPart name := by
  induction names generalizing done with
  | nil => exact hdone
  | cons first names ih =>
    obtain ⟨hfirst, hnames⟩ := forall_mem_cons.1 hslash
    exact ih (fun n hn => isPart_of_mem_normalStep hdone hfirst hn) hnames

/-- `normalize` gives a path that `IsNormal`, from a path from the root. -/
theorem isNormal_normalize {p : String} (h : isAbsolute p = true) :
    IsNormal (normalize p) := by
  refine ⟨rootOf p, _, Disk.rootOf_of_isAbsolute h,
    Disk.normalize_of_isAbsolute h, fun name hname => ?_⟩
  have hslash : ∀ n ∈ components p, '/' ∉ n.toList :=
    fun n hn => not_mem_of_mem_components hn
  exact isPart_of_mem_foldl (fun n hn => absurd hn not_mem_nil) hslash name
    (mem_reverse.1 hname)

theorem parts_of_normal {root : String} {names : List String}
    (hroot : root = "/" ∨ root = "//") (hnames : ∀ name ∈ names, IsPart name) :
    isAbsolute (root ++ "/".intercalate names) = true ∧
      rootOf (root ++ "/".intercalate names) = root ∧
      (components (root ++ "/".intercalate names)).foldl (normalStep true) [] =
        names.reverse := by
  have hroots := rootOf_of_not_isAbsolute (isAbsolute_intercalate hnames)
  have hnamed : (components ("/".intercalate names)).foldl (normalStep true)
      [] = names.reverse := by
    have htext := Disk.foldl_placeText hnames
    rw [Disk.placeText, components_absolute] at htext
    exact htext
  rcases hroot with rfl | rfl
  · refine ⟨isAbsolute_iff.2 ⟨_, rfl⟩, hroots.1, ?_⟩
    rw [components_absolute]
    exact hnamed
  · have hdouble : "//" ++ "/".intercalate names =
        "/" ++ ("/" ++ "/".intercalate names) := by
      rw [← String.append_assoc]
      rfl
    refine ⟨isAbsolute_iff.2 ⟨_, hdouble⟩, hroots.2, ?_⟩
    rw [hdouble, components_absolute, components_absolute]
    exact hnamed

/-- A path that `IsNormal` is its own normal form. -/
theorem IsNormal.normalize_eq {p : String} (h : IsNormal p) :
    isAbsolute p = true ∧ normalize p = p := by
  obtain ⟨root, names, hroot, rfl, hnames⟩ := h
  obtain ⟨habsolute, hrootOf, hstack⟩ := parts_of_normal hroot hnames
  refine ⟨habsolute, ?_⟩
  rw [Disk.normalize_of_isAbsolute habsolute, hrootOf, hstack, reverse_reverse]

end Path

namespace Files

/-! ## Files and their normal paths -/

private theorem locate_of_isFile {s : Site} (hs : s.seat.removed = false)
    {p : String} (h : isFile s p = true) :
    p.contains '\x00' = false ∧ ∃ place node, s.disk.locate s.seat p = .ok
      (.at_ place) ∧ s.disk.get? place = some node ∧
      node? s p = some node := by
  cases hp : p.contains '\x00' with
  | true =>
    rw [isFile, node?, hp] at h
    cases h
  | false =>
    refine ⟨rfl, ?_⟩
    rw [isFile, node?, hp, if_neg Bool.false_ne_true, Disk.find] at h
    rw [node?, hp, if_neg Bool.false_ne_true, Disk.find]
    cases hlocate : s.disk.locate s.seat p with
    | error code =>
      rw [hlocate] at h
      cases h
    | ok last =>
      cases last with
      | lost place => exact absurd hlocate (not_lost hs)
      | at_ place =>
        rw [hlocate] at h
        dsimp only [bind, Except.bind] at h
        cases hnode : s.disk.get? place with
        | none =>
          rw [hnode] at h
          cases h
        | some node =>
          refine ⟨place, node, rfl, hnode, ?_⟩
          dsimp only [bind, Except.bind]
          rw [hnode]
          rfl

/-- **`node?` finds a file under the normal form of its path**, if that starts
at the root. -/
theorem node?_normalize {s : Site} (hs : s.Stands) {p : String}
    (hp : Path.isAbsolute p = true) (h : isFile s p = true) :
    node? s (Path.normalize p) = node? s p := by
  obtain ⟨hnull, place, node, hlocate, hget, hnode⟩ :=
    locate_of_isFile hs.seated h
  have hjoin : Path.absoluteIn (Disk.placeText s.seat.place) p =
      Path.normalize p := by
    rw [Path.absoluteIn, Path.join, if_pos hp]
  have hshort : (utf8 (Path.normalize p)).length < Disk.maxPath :=
    Nat.lt_of_le_of_lt (Path.length_normalize_le hp)
      (Disk.length_of_locate hlocate)
  have hnormal := Disk.locate_absoluteIn hs.seated hs.reached hs.root hlocate
    (by rw [hjoin]; exact hshort)
  have hplain : (Path.normalize p).contains '\x00' = false := by
    rw [String.contains_char_eq, decide_eq_false_iff_not] at hnull ⊢
    intro hmem
    rw [← hjoin] at hmem
    rcases Disk.mem_of_mem_absoluteIn (Disk.isAbsolute_placeText _) hmem
      with hmem | hmem | hmem
    · cases hmem
    · exact hs.plain hmem
    · exact hnull hmem
  rw [hjoin] at hnormal
  rw [hnode, node?, hplain, if_neg Bool.false_ne_true, Disk.find, hnormal]
  dsimp only [bind, Except.bind]
  rw [hget]
  rfl

theorem isFile_normalize {s : Site} (hs : s.Stands) {p : String}
    (hp : Path.isAbsolute p = true) (h : isFile s p = true) :
    isFile s (Path.normalize p) = true := by
  rw [isFile, node?_normalize hs hp h]
  exact h

end Files

namespace App

/-! ## The priorities of a script -/

/-- The paths that decide where a script is found: its name and then its name
with each ending, first from the working directory and then in the directory of
the program. -/
def priorities (s : Site) (p : String) : List String :=
  let cwd := Disk.placeText s.seat.place
  let appDir := s.host.appDir
  [Path.absoluteIn cwd p, Path.join appDir p,
    Path.absoluteIn cwd (p ++ ".latin"), Path.join appDir (p ++ ".latin"),
    Path.absoluteIn cwd (p ++ ".py"), Path.join appDir (p ++ ".py"),
    Path.absoluteIn cwd (p ++ ".txt"), Path.join appDir (p ++ ".txt")]

variable {s : Site} {p : String}

theorem priorities_eq (s : Site) (p : String) :
    priorities s p = ("" :: scriptEndings).flatMap fun ending =>
    [Path.absoluteIn (Disk.placeText s.seat.place) (p ++ ending),
        Path.join s.host.appDir (p ++ ending)] := by
  have hempty : p ++ "" = p := String.append_empty
  rw [flatMap_cons, hempty]
  rfl

theorem isAbsolute_of_mem_priorities {path : String}
    (happ : Path.isAbsolute s.host.appDir = true) (h : path ∈ priorities s p) :
    Path.isAbsolute path = true := by
  rw [priorities_eq] at h
  obtain ⟨ending, -, hpath⟩ := mem_flatMap.1 h
  rcases mem_cons.1 hpath with hpath | hpath
  · rw [hpath]
    exact (Path.isNormal_normalize
      (Path.isAbsolute_join (Disk.isAbsolute_placeText _) _)).normalize_eq.1
  · rw [mem_singleton.1 hpath]
    exact Path.isAbsolute_join happ _

private theorem find?_placesOf (hs : s.Stands) (appDir p : String) :
    (placesOf (Disk.placeText s.seat.place) appDir p).find? (Files.isFile s) =
      [Path.absoluteIn (Disk.placeText s.seat.place) p,
        Path.join appDir p].find? (Files.isFile s) := by
  unfold placesOf
  rw [find?_cons, find?_cons (a := Path.absoluteIn _ p)]
  cases hnormal :
      Files.isFile s (Path.absoluteIn (Disk.placeText s.seat.place) p) with
  | true => rfl
  | false =>
    have hplain :
        Files.isFile s (Path.join (Disk.placeText s.seat.place) p) = false := by
      rw [← Bool.not_eq_true]
      intro hfile
      have habsolute :=
        Path.isAbsolute_join (Disk.isAbsolute_placeText s.seat.place) p
      have hfound : Files.isFile s
          (Path.absoluteIn (Disk.placeText s.seat.place) p) = true :=
        Files.isFile_normalize hs habsolute hfile
      rw [hnormal] at hfound
      cases hfound
    dsimp only
    rw [find?_cons, hplain]

/-- **The plain paths from the working directory decide nothing**: `candidates`
and `priorities` have the same first file. -/
theorem find?_candidates (hs : s.Stands) (p : String) :
    (candidates (Disk.placeText s.seat.place) s.host.appDir p).find?
      (Files.isFile s) = (priorities s p).find? (Files.isFile s) := by
  rw [priorities_eq, candidates, find?_flatMap, find?_flatMap]
  simp only [find?_placesOf hs]

/-! ## Looking a script up -/

theorem resolve_of_absolute (hp : Path.isAbsolute p = true)
    (h : (Files.isFile s p || Files.isFile s (Path.normalize p)) = true) :
    resolve p s = (.ok (Path.normalize p), s) := by
  unfold resolve
  rw [get_bind_apply, hp, h]
  rfl

private theorem resolve_of_candidates (hs : s.Stands)
    (h : (Path.isAbsolute p &&
      (Files.isFile s p || Files.isFile s (Path.normalize p))) = false) :
    resolve p s = (((candidates (Disk.placeText s.seat.place)
      s.host.appDir p).find? (Files.isFile s)).elim
      (.error (.noFile p)) (fun path =>
        .ok (Path.absoluteIn (Disk.placeText s.seat.place) path)), s) := by
  unfold resolve
  rw [get_bind_apply, h, if_neg Bool.false_ne_true,
    bind_of_ok (Files.workingDir_of_seated hs.seated)]
  cases (candidates (Disk.placeText s.seat.place) s.host.appDir p).find?
      (Files.isFile s) with
  | none => rfl
  | some path => rfl

/-- `resolve` gives the first file among the `priorities`, by its normal
form. -/
theorem resolve_eq (hs : s.Stands) (happ : Path.isAbsolute s.host.appDir = true)
    (p : String) : resolve p s =
    (((priorities s p).find? (Files.isFile s)).elim (.error (.noFile p))
      (fun path => .ok (Path.normalize path)), s) := by
  have hroot : ∀ q, Path.isAbsolute q = true →
      Path.absoluteIn (Disk.placeText s.seat.place) q = Path.normalize q := by
    intro q hq
    rw [Path.absoluteIn, Path.join, if_pos hq]
  cases hdirect : Path.isAbsolute p &&
      (Files.isFile s p || Files.isFile s (Path.normalize p)) with
  | true =>
    -- a path from the root is its own first priority, up to the normal form
    obtain ⟨hp, hfile⟩ := Bool.and_eq_true_iff.1 hdirect
    have hnormal : Files.isFile s (Path.normalize p) = true := by
      rcases Bool.or_eq_true_iff.1 hfile with hfile | hfile
      · exact Files.isFile_normalize hs hp hfile
      · exact hfile
    rw [resolve_of_absolute hp hfile, priorities, find?_cons,
      hroot p hp, hnormal]
    dsimp only [Option.elim_some]
    rw [(Path.isNormal_normalize hp).normalize_eq.2]
  | false =>
    rw [resolve_of_candidates hs hdirect, find?_candidates hs]
    cases hfound : (priorities s p).find? (Files.isFile s) with
    | none => rw [Option.elim_none, Option.elim_none]
    | some path =>
      dsimp only [Option.elim_some]
      rw [hroot path
        (isAbsolute_of_mem_priorities happ (mem_of_find?_eq_some hfound))]

/-- **A script has a fixed priority.** In every state whose working directory is
there and for every path, the lookup gives the normal form of the first priority
that leads to a file, and it fails exactly if none does; there is no other
outcome. The normal form is an absolute path that leads to the same file. The
plain paths from the working directory are tried as well, but what is found
among all paths is what is found among the priorities. -/
theorem resolve_by_priority (hs : s.Stands)
    (happ : Path.isAbsolute s.host.appDir = true) (p : String) :
    (∀ found, resolve p s = (.ok found, s) ↔
      ∃ before path after, priorities s p = before ++ path :: after ∧
      (∀ q ∈ before, Files.isFile s q = false) ∧ Files.isFile s path = true ∧
      found = Path.normalize path) ∧
    (resolve p s = (.error (.noFile p), s) ↔
      ∀ path ∈ priorities s p, Files.isFile s path = false) ∧
    ((∃ found, resolve p s = (.ok found, s)) ∨
      resolve p s = (.error (.noFile p), s)) ∧
    (∀ path ∈ priorities s p, Files.isFile s path = true →
      Files.node? s (Path.normalize path) = Files.node? s path ∧
      Path.IsNormal (Path.normalize path)) ∧
    (candidates (Disk.placeText s.seat.place) s.host.appDir p).find?
      (Files.isFile s) = (priorities s p).find? (Files.isFile s) := by
  rw [resolve_eq hs happ]
  refine ⟨fun found => ?_, ?_, ?_, fun path hpath hfile => ?_,
    find?_candidates hs p⟩
  · cases hfind : (priorities s p).find? (Files.isFile s) with
    | none =>
      refine iff_of_false (fun h => by cases h) ?_
      rintro ⟨before, path, after, hlist, -, hfile, -⟩
      exact find?_eq_none.1 hfind path (by rw [hlist]; simp) hfile
    | some first =>
      obtain ⟨hfirst, before, after, hlist, hbefore⟩ :=
        find?_eq_some_iff_append.1 hfind
      constructor
      · intro h
        cases h
        exact ⟨before, first, after, hlist,
          fun q hq => by simpa using hbefore q hq, hfirst, rfl⟩
      · rintro ⟨others, path, rest, hother, hothers, hpath, rfl⟩
        have hsame : (priorities s p).find? (Files.isFile s) = some path :=
          find?_eq_some_iff_append.2 ⟨hpath, others, rest, hother,
            fun q hq => by rw [hothers q hq]; rfl⟩
        rw [Option.some.inj (hfind.symm.trans hsame)]
        rfl
  · cases hfind : (priorities s p).find? (Files.isFile s) with
    | none => exact iff_of_true rfl fun path hpath =>
        Bool.eq_false_iff.2 (find?_eq_none.1 hfind path hpath)
    | some first =>
      refine iff_of_false (fun h => by cases h) fun hnone => ?_
      have hfirst := hnone first (mem_of_find?_eq_some hfind)
      rw [find?_some hfind] at hfirst
      cases hfirst
  · cases (priorities s p).find? (Files.isFile s) with
    | none => exact .inr rfl
    | some path => exact .inl ⟨_, rfl⟩
  · have habsolute := isAbsolute_of_mem_priorities happ hpath
    exact ⟨Files.node?_normalize hs habsolute hfile,
      Path.isNormal_normalize habsolute⟩

/-- A site with the script `x.latin` in its working directory, the root, and a
file `x` beside the program. -/
def lookupSite : Site :=
  { (default : Site) with
    disk := [([], ⟨.dir, 0o755, ⟨0, 0⟩⟩), (["app"], ⟨.dir, 0o755, ⟨0, 0⟩⟩),
      (["app", "x"], ⟨.file [], 0o644, ⟨0, 0⟩⟩),
      (["x.latin"], ⟨.file [], 0o644, ⟨0, 0⟩⟩)]
    seat := ⟨[], false⟩
    host := { (default : Host) with appDir := "/app" } }

theorem stands_lookupSite : lookupSite.Stands where
  seated := rfl
  reached := Disk.reached_nil
  dir := rfl
  plain := by decide

/-- Through a directory that is missing only a normal form leads on, so the file
beside the program is not found. -/
theorem resolve_by_priority_detour :
    lookupSite.Stands ∧ Path.isAbsolute lookupSite.host.appDir = true ∧
    resolve "nope/../x" lookupSite = (.ok "/x.latin", lookupSite) := by
  have happ : Path.isAbsolute lookupSite.host.appDir = true := by decide
  refine ⟨stands_lookupSite, happ, ((resolve_by_priority stands_lookupSite happ
    _).1 _).2 ⟨["/x", "/app/nope/../x"], "/x.latin", _, rfl, ?_, ?_, ?_⟩⟩
  · rw [forall_mem_cons, forall_mem_singleton]
    simp only [Files.isFile, Files.node?, String.contains_char_eq]
    exact ⟨rfl, rfl⟩
  · simp only [Files.isFile, Files.node?, String.contains_char_eq]
    rfl
  · decide

end App

end TaskShell
