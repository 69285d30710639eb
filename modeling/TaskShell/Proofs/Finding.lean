import Mathlib.Data.List.Nodup
import Mathlib.Data.List.Perm.Subperm
import TaskShell.Proofs.Trimming
import TaskShell.Proofs.Walking

/-!
# Finding files below a directory

Files are found by going through a directory and then, one after the other,
through the directories in it. On a disk that is a tree every directory is come
to once, after the one that holds it, as far as its path is short enough to be
opened. So what is found are the files with a fitting name, each once, and those
of a directory before those of the directories below it.
-/

namespace TaskShell

open Act Text List

variable {name : String} {names : List String} {q rel : Place}

namespace Path

/-! ## Appending names -/

theorem isAbsolute_of_not_mem (h : '/' ∉ name.toList) :
    isAbsolute name = false := by
  rw [← Bool.not_eq_true]
  intro habsolute
  obtain ⟨rest, rfl⟩ := isAbsolute_iff.1 habsolute
  exact h (by simp)

/-- The components of a path behind which a name is put; a slash at its end is
not put twice. -/
def front (p : String) : List String :=
  if endsWith p "/" then (components p).dropLast else components p

theorem front_ne_nil (p : String) : front p ≠ [] := by
  unfold front
  split
  · next hslash =>
    obtain ⟨stem, rfl⟩ := endsWith_slash_iff.1 hslash
    rw [components_slash, dropLast_concat]
    exact components_ne_nil stem
  · exact components_ne_nil p

theorem components_join {p : String} (hp : p.isEmpty = false)
    (hname : IsPart name) : components (join p name) = front p ++ [name] := by
  have hone : components name = [name] := by
    rw [components, pieces, splitAll_of_not_mem hname.slash, map_singleton,
      String.ofList_toList]
  unfold join front
  rw [isAbsolute_of_not_mem hname.slash, hp, if_neg Bool.false_ne_true,
    Bool.false_or]
  cases hslash : endsWith p "/" with
  | true =>
    obtain ⟨stem, rfl⟩ := endsWith_slash_iff.1 hslash
    rw [if_pos rfl, if_pos rfl, components_append, components_slash,
      dropLast_concat, hone]
  | false =>
    rw [if_neg Bool.false_ne_true, if_neg Bool.false_ne_true,
      components_append, hone]

theorem front_join {p : String} (hp : p.isEmpty = false) (hname : IsPart name) :
    front (join p name) = front p ++ [name] := by
  have hcomponents := components_join hp hname
  rw [front, if_neg, hcomponents]
  intro hslash
  obtain ⟨stem, hstem⟩ := endsWith_slash_iff.1 hslash
  rw [hstem, components_slash] at hcomponents
  have hempty := hname.nonempty
  rw [← singleton_inj.1 (List.append_inj_right' hcomponents rfl)] at hempty
  cases hempty

theorem joinAll_snoc (p : String) (names : List String) (name : String) :
    joinAll p (names ++ [name]) = join (joinAll p names) name := by
  rw [joinAll, foldl_append]
  rfl

theorem exists_join_eq (p : String) (h : IsPart name) :
    ∃ tail, join p name = p ++ tail := by
  unfold join
  rw [isAbsolute_of_not_mem h.slash, if_neg Bool.false_ne_true]
  split
  · exact ⟨name, rfl⟩
  · exact ⟨"/" ++ name, String.append_assoc⟩

/-- `joinAll` keeps the path that names are appended to. -/
theorem exists_joinAll_eq (p : String) (h : ∀ name ∈ names, IsPart name) :
    ∃ tail, joinAll p names = p ++ tail := by
  induction names generalizing p with
  | nil => exact ⟨"", String.append_empty.symm⟩
  | cons name names ih =>
    obtain ⟨hname, hnames⟩ := forall_mem_cons.1 h
    obtain ⟨tail, htail⟩ := ih (join p name) hnames
    obtain ⟨more, hmore⟩ := exists_join_eq p hname
    refine ⟨more ++ tail, ?_⟩
    rw [joinAll, foldl_cons, ← joinAll, htail, hmore, String.append_assoc]

theorem isEmpty_append {p : String} (hp : p.isEmpty = false) (tail : String) :
    (p ++ tail).isEmpty = false := by
  rw [Bool.eq_false_iff, ne_eq, String.isEmpty_iff, String.append_eq_empty_iff]
  rintro ⟨rfl, -⟩
  cases hp

theorem isAbsolute_append {p : String} (hp : p.isEmpty = false)
    (tail : String) : isAbsolute (p ++ tail) = isAbsolute p := by
  unfold isAbsolute startsWith
  rw [String.toList_append]
  cases hchars : p.toList with
  | nil =>
    rw [String.toList_eq_nil_iff] at hchars
    rw [hchars] at hp
    cases hp
  | cons c cs => rfl

/-- **The names that `joinAll` appends to a path are its last `components`.** -/
theorem components_joinAll {p : String} (hp : p.isEmpty = false)
    (hne : names ≠ []) (h : ∀ name ∈ names, IsPart name) :
    components (joinAll p names) = front p ++ names := by
  induction names generalizing p with
  | nil => exact absurd rfl hne
  | cons name names ih =>
    obtain ⟨hname, hnames⟩ := forall_mem_cons.1 h
    rw [joinAll, foldl_cons, ← joinAll]
    by_cases hlast : names = []
    · subst hlast
      exact components_join hp hname
    · have hjoin : (join p name).isEmpty = false := by
        obtain ⟨tail, htail⟩ := exists_join_eq p hname
        rw [htail]
        exact isEmpty_append hp tail
      rw [ih hjoin hlast hnames, front_join hp hname, append_assoc]
      rfl

theorem slash_mem_joinAll {p : String} (hp : p.isEmpty = false)
    (hne : names ≠ []) (h : ∀ name ∈ names, IsPart name) :
    '/' ∈ (joinAll p names).toList := by
  by_contra hslash
  have hone : (components (joinAll p names)).length = 1 := by
    rw [components, pieces, splitAll_of_not_mem hslash]
    rfl
  rw [components_joinAll hp hne h, length_append] at hone
  have hfront := length_pos_iff.2 (front_ne_nil p)
  have hnames := length_pos_iff.2 hne
  omega

theorem joinAll_inj {p : String} (hp : p.isEmpty = false) {more : List String}
    (hnames : ∀ name ∈ names, IsPart name) (hmore : ∀ name ∈ more, IsPart name)
    (hne : names ≠ []) (hne' : more ≠ [])
    (h : joinAll p names = joinAll p more) :
    names = more := by
  have hcomponents := congrArg components h
  rw [components_joinAll hp hne hnames, components_joinAll hp hne' hmore]
    at hcomponents
  exact append_cancel_left hcomponents

end Path

namespace Disk

variable {d : Disk}

private theorem not_isEmpty_of_locate {seat : Seat} {p : String} {last : Cursor}
    (h : d.locate seat p = .ok last) :
    p.isEmpty = false := by
  rw [Bool.eq_false_iff]
  intro hempty
  rw [locate, hempty] at h
  cases h

/-- `locate` goes from a path to the places behind it, if the whole path is not
too long. -/
theorem locate_joinAll {seat : Seat} {p : String} {start : Place}
    (hstart : d.locate seat p = .ok (.at_ start))
    (hreached : d.Reached (start ++ names))
    (hshort : (utf8 (Path.joinAll p names)).length < maxPath) :
    d.locate seat (Path.joinAll p names) = .ok (.at_ (start ++ names)) := by
  by_cases hnames : names = []
  · rw [hnames, append_nil]
    exact hstart
  · have hp := not_isEmpty_of_locate hstart
    have hparts : ∀ name ∈ names, Path.IsPart name := fun name hname =>
      (hreached.names name (mem_append_right _ hname)).isPart
    obtain ⟨tail, htail⟩ := Path.exists_joinAll_eq p hparts
    have habsolute : Path.isAbsolute (Path.joinAll p names) =
        Path.isAbsolute p := by
      rw [htail, Path.isAbsolute_append hp]
    have hne : (Path.joinAll p names).isEmpty = false := by
      rw [htail]
      exact Path.isEmpty_append hp tail
    have hfront : d.walk (Disk.start seat p)
        (if Path.isAbsolute p then (Path.front p).drop 1 else Path.front p) =
        .ok (.at_ start) := by
      have hwalk := walk_of_locate hstart
      unfold Path.front
      cases hslash : endsWith p "/" with
      | true =>
        obtain ⟨stem, rfl⟩ := Path.endsWith_slash_iff.1 hslash
        rw [steps_append (Path.components_ne_nil stem)
          (Path.components_slash stem)] at hwalk
        rw [if_pos rfl, Path.components_slash, dropLast_concat]
        exact (walk_of_slash hwalk).1
      | false => exact hwalk
    have hsteps := steps_append (Path.front_ne_nil p)
      (Path.components_joinAll hp hnames hparts)
    rw [Disk.start] at hfront
    rw [locate_eq_walk hne hshort, hsteps, Disk.start, habsolute,
      walk_append, hfront]
    exact hreached.walk

/-! ## Trees -/

/-- A disk that is a tree: every place is there once, and below directories
only. -/
structure IsTree (d : Disk) : Prop where
  distinct : (d.map Prod.fst).Nodup
  reached : ∀ entry ∈ d, d.Reached entry.1

theorem isSome_get?_iff : (d.get? q).isSome = true ↔ q ∈ d.map Prod.fst := by
  rw [get?, lookup_isSome_iff, mem_map]
  constructor
  · rintro ⟨entry, hentry, hq⟩
    exact ⟨entry, hentry, (beq_iff_eq.1 hq).symm⟩
  · rintro ⟨entry, hentry, rfl⟩
    exact ⟨entry, hentry, beq_self_eq_true _⟩

theorem mem_names_cases {entry : Place × Node}
    (h : (if q.isPrefixOf entry.1 && entry.1.length == q.length + 1 then
      entry.1.getLast? else none) = some name) :
    entry.1 = q ++ [name] := by
  split at h
  · next hbelow =>
    obtain ⟨hstarts, hlength⟩ := Bool.and_eq_true_iff.1 hbelow
    obtain ⟨more, hmore⟩ := isPrefixOf_iff_prefix.1 hstarts
    have hone : more.length = 1 := by
      have htotal := beq_iff_eq.1 hlength
      rw [← hmore, length_append] at htotal
      omega
    obtain ⟨last, rfl⟩ := length_eq_one_iff.1 hone
    rw [← hmore, getLast?_concat] at h
    rw [← hmore, Option.some.inj h]
  · cases h

theorem mem_names_iff :
    name ∈ d.names q ↔ (d.get? (q ++ [name])).isSome = true := by
  unfold names
  dsimp only
  rw [mem_mergeSort, mem_filterMap, isSome_get?_iff, mem_map]
  constructor
  · rintro ⟨entry, hentry, hname⟩
    exact ⟨entry, hentry, mem_names_cases hname⟩
  · rintro ⟨entry, hentry, hq⟩
    refine ⟨entry, hentry, ?_⟩
    rw [hq]
    simp

theorem mem_files_iff :
    name ∈ (d.names q).filter (fun name => !d.isDir (q ++ [name])) ↔
    d.isFile (q ++ [name]) = true := by
  rw [mem_filter, mem_names_iff, isDir, isFile]
  cases d.get? (q ++ [name]) with
  | none => simp
  | some node => exact ⟨fun h => h.2, fun h => ⟨rfl, h⟩⟩

namespace IsTree

variable (htree : d.IsTree)

include htree

theorem nodup_names (q : Place) : (d.names q).Nodup := by
  unfold names
  dsimp only
  rw [(mergeSort_perm _ _).nodup_iff, List.Nodup, pairwise_filterMap]
  refine (pairwise_map.1 htree.distinct).imp ?_
  rintro entry other hne name hname _ hother rfl
  exact hne ((mem_names_cases hname).trans (mem_names_cases hother).symm)

theorem reached_of_any {P : Node → Bool} (h : (d.get? q).any P = true) :
    d.Reached q := by
  obtain ⟨node, hnode, -⟩ := (Option.any_eq_true _ _).1 h
  obtain ⟨entry, hentry, rfl⟩ :=
    mem_map.1 (isSome_get?_iff.1 (by rw [hnode]; rfl))
  exact htree.reached entry hentry

theorem isDir_above {r : Place} (h : d.isDir q = true) (hr : r <+: q) :
    d.isDir r = true := by
  by_cases hq : r = q
  · rwa [hq]
  · exact (htree.reached_of_any h).above r hr hq

theorem isDir_of_isFile (h : d.isFile (q ++ [name]) = true) :
    d.isDir q = true := by
  refine (htree.reached_of_any h).above q (prefix_append _ _) ?_
  intro hq
  exact cons_ne_nil _ _ (self_eq_append_right.1 hq)

/-- A directory is less deep than there are places: those above it are all
different. -/
theorem length_lt (h : d.isDir q = true) : q.length < d.length := by
  have hnodup : ((List.range (q.length + 1)).map q.take).Nodup := by
    refine Nodup.map_on ?_ nodup_range
    intro i hi j hj hij
    rw [mem_range] at hi hj
    have hlength := congrArg List.length hij
    rw [length_take, length_take] at hlength
    omega
  have hsubset : (List.range (q.length + 1)).map q.take ⊆ d.map Prod.fst := by
    intro r hr
    obtain ⟨i, -, rfl⟩ := mem_map.1 hr
    obtain ⟨node, hnode, -⟩ :=
      get?_of_isDir (htree.isDir_above h ( take_prefix i q))
    exact isSome_get?_iff.1 (by rw [hnode]; rfl)
  have hlength := (subperm_of_subset hnodup hsubset).length_le
  rw [length_map, length_map, length_range] at hlength
  omega

end IsTree

/-! ## Going through directories -/

def opens (p : String) (rel : Place) : Bool :=
  decide ((utf8 (Path.joinAll p rel)).length < maxPath)

/-- The directories below one at `start` that `filesBelow` goes through, as the
names that lead to them. -/
def visits (d : Disk) (p : String) (start : Place) : Nat → Place → List Place
  | 0, _ => []
  | fuel + 1, rel =>
    if opens p rel then
      rel :: ((d.names (start ++ rel)).filter fun name =>
          d.isDir (start ++ rel ++ [name])).flatMap fun name =>
        visits d p start fuel (rel ++ [name])
    else []

section Visits

variable {p : String} {start : Place} (htree : d.IsTree)

include htree

private theorem opens_above (hrel : rel <+: q)
    (hdir : d.isDir (start ++ q) = true) (h : opens p q = true) :
    opens p rel = true := by
  obtain ⟨more, rfl⟩ := hrel
  have hparts : ∀ name ∈ more, Path.IsPart name := fun name hname =>
    ((htree.reached_of_any hdir).names name (by simp [hname])).isPart
  obtain ⟨tail, htail⟩ := Path.exists_joinAll_eq (Path.joinAll p rel) hparts
  have hjoin : Path.joinAll p (rel ++ more) = Path.joinAll p rel ++ tail := by
    rw [← htail]
    exact foldl_append
  rw [opens, decide_eq_true_iff] at h ⊢
  rw [hjoin, utf8, utf8Of, String.toList_append, flatMap_append,
    length_append] at h
  exact Nat.lt_of_le_of_lt (Nat.le_add_right _ _) h

/-- **The directories below one are gone through if `opens` allows it**, down to
the given depth. -/
theorem mem_visits_iff {fuel : Nat} : q ∈ visits d p start fuel rel ↔
    rel <+: q ∧ (rel ≠ q → d.isDir (start ++ q) = true) ∧ opens p q = true ∧
    q.length < rel.length + fuel := by
  induction fuel generalizing rel with
  | zero =>
    constructor
    · intro h
      cases h
    · rintro ⟨hrel, -, -, hlength⟩
      exact absurd hrel.length_le (Nat.not_le.2 hlength)
  | succ fuel ih =>
    rw [visits]
    constructor
    · intro h
      split at h
      · next hopen =>
        rcases mem_cons.1 h with rfl | h
        · exact ⟨prefix_rfl, fun hne => absurd rfl hne, hopen, by omega⟩
        · obtain ⟨name, hname, hq⟩ := mem_flatMap.1 h
          obtain ⟨hbelow, hdir, hq, hlength⟩ := ih.1 hq
          refine ⟨(prefix_append rel [name]).trans hbelow, fun _ => ?_, hq, ?_⟩
          · by_cases heq : rel ++ [name] = q
            · rw [← heq, ← append_assoc]
              exact (mem_filter.1 hname).2
            · exact hdir heq
          · rw [length_append, length_singleton] at hlength
            omega
      · cases h
    · rintro ⟨⟨more, rfl⟩, hdir, hq, hlength⟩
      cases more with
      | nil =>
        rw [append_nil] at hq ⊢
        rw [if_pos hq]
        exact mem_cons_self
      | cons name more =>
        have hbelow : d.isDir (start ++ (rel ++ name :: more)) = true :=
          hdir (by simp)
        rw [if_pos (opens_above htree (prefix_append rel _) hbelow hq)]
        have hchild : d.isDir (start ++ rel ++ [name]) = true :=
          htree.isDir_above hbelow ⟨more, by simp⟩
        obtain ⟨node, hnode, -⟩ := get?_of_isDir hchild
        have hname : name ∈ d.names (start ++ rel) :=
          mem_names_iff.2 (by rw [hnode]; rfl)
        refine mem_cons_of_mem _
          (mem_flatMap.2 ⟨name, mem_filter.2 ⟨hname, hchild⟩, ih.2 ?_⟩)
        refine ⟨⟨more, (append_cons rel name more).symm⟩,
          fun _ => hbelow, hq, ?_⟩
        have hone : (rel ++ [name]).length = rel.length + 1 := length_append
        omega

/-- **`visits` names a directory once, and after those that hold it.** -/
theorem pairwise_visits (fuel : Nat) (rel : Place) :
    (visits d p start fuel rel).Pairwise fun q q' => ¬ q' <+: q := by
  induction fuel generalizing rel with
  | zero => exact List.Pairwise.nil
  | succ fuel ih =>
    rw [visits]
    split
    · refine pairwise_cons.2 ⟨?_, pairwise_flatMap.2 ⟨fun name _ => ih _, ?_⟩⟩
      · intro q hq hbelow
        obtain ⟨name, -, hq⟩ := mem_flatMap.1 hq
        have hlength := (((mem_visits_iff htree).1 hq).1.trans hbelow).length_le
        rw [length_append, length_singleton] at hlength
        omega
      · refine ((htree.nodup_names _).filter _).imp ?_
        intro name other hne q hq q' hq' hbelow
        -- both names would follow the same names in one place
        have hsame := prefix_of_prefix_length_le ((mem_visits_iff htree).1 hq).1
          (((mem_visits_iff htree).1 hq').1.trans hbelow) (by simp)
        have heq := hsame.eq_of_length (by simp)
        exact hne (singleton_inj.1 (append_cancel_left heq))
    · exact List.Pairwise.nil

end Visits

theorem locate_of_long (d : Disk) (seat : Seat) {p : String}
    (h : ¬ (utf8 p).length < maxPath) :
    ∃ code, d.locate seat p = .error code := by
  unfold locate
  split
  · exact ⟨_, rfl⟩
  · exact ⟨_, if_pos (Nat.not_lt.1 h)⟩

end Disk

namespace Shell

/-! ## What is found -/

/-- The files that `findMatches` finds below a directory, as the names that lead
to them. -/
def found (d : Disk) (p : String) (start : Place)
    (pattern : String) : List Place :=
  (d.visits p start (d.length + 1) []).flatMap fun rel =>
    (((d.names (start ++ rel)).filter fun name =>
        !d.isDir (start ++ rel ++ [name])).filter fun name =>
      Text.contains name pattern).map fun name => rel ++ [name]

section Found

variable {s : Site} {p : String} {start : Place} (htree : s.disk.IsTree)
  (hstart : s.disk.locate s.seat p = .ok (.at_ start))

include htree hstart

/-- `filesBelow` follows `visits`. -/
theorem filesBelow_eq (fuel : Nat) (hdir : s.disk.isDir (start ++ rel) = true) :
    filesBelow s fuel (Path.joinAll p rel) =
      (s.disk.visits p start fuel rel).map fun rel =>
      (Path.joinAll p rel, (s.disk.names (start ++ rel)).filter fun name =>
          !s.disk.isDir (start ++ rel ++ [name])) := by
  induction fuel generalizing rel with
  | zero => rfl
  | succ fuel ih =>
    rw [filesBelow, Disk.visits]
    cases hopen : Disk.opens p rel with
    | false =>
      obtain ⟨code, hcode⟩ :=
        Disk.locate_of_long s.disk s.seat (of_decide_eq_false hopen)
      rw [hcode]
      rfl
    | true =>
      rw [Disk.locate_joinAll hstart (htree.reached_of_any hdir)
        (of_decide_eq_true hopen)]
      dsimp only
      rw [hdir, if_pos rfl, if_pos rfl, map_cons, map_flatMap]
      refine congrArg _ (flatMap_congr fun name hname => ?_)
      rw [← Path.joinAll_snoc]
      exact ih (by rw [← append_assoc]; exact (mem_filter.1 hname).2)

theorem findMatches_eq (hdir : s.disk.isDir start = true) (pattern : String) :
    findMatches s p pattern =
      (found s.disk p start pattern).map (Path.joinAll p) := by
  have hbelow : filesBelow s (s.disk.length + 1) (Path.joinAll p []) = _ :=
    filesBelow_eq htree hstart _ (by rw [append_nil]; exact hdir)
  unfold findMatches found
  rw [show p = Path.joinAll p [] from rfl, hbelow, flatMap_map, map_flatMap]
  refine flatMap_congr fun rel _ => ?_
  rw [map_map]
  exact map_congr_left fun name _ => (Path.joinAll_snoc p rel name).symm

omit hstart

theorem mem_found_iff {pattern : String} {e : Place} :
    e ∈ found s.disk p start pattern ↔ ∃ rel name, e = rel ++ [name] ∧
      s.disk.isFile (start ++ e) = true ∧
      pattern.toList <:+: name.toList ∧ Disk.opens p rel = true := by
  unfold found
  rw [mem_flatMap]
  constructor
  · rintro ⟨rel, hrel, he⟩
    obtain ⟨name, hname, rfl⟩ := mem_map.1 he
    obtain ⟨hfile, hpattern⟩ := mem_filter.1 hname
    rw [Disk.mem_files_iff, append_assoc] at hfile
    exact ⟨rel, name, rfl, hfile, (occursIn_iff _ _).1 hpattern,
      ((Disk.mem_visits_iff htree).1 hrel).2.2.1⟩
  · rintro ⟨rel, name, rfl, hfile, hpattern, hopen⟩
    rw [← append_assoc] at hfile
    have hdir := htree.isDir_of_isFile hfile
    refine ⟨rel, (Disk.mem_visits_iff htree).2 ⟨ nil_prefix, fun _ => hdir,
      hopen, ?_⟩, mem_map.2 ⟨name, mem_filter.2 ⟨Disk.mem_files_iff.2 hfile,
        (occursIn_iff _ _).2 hpattern⟩, rfl⟩⟩
    have hlength := htree.length_lt hdir
    rw [length_append] at hlength
    rw [length_nil]
    omega

/-- **A file is `found` once, and before the files in the directories below its
own.** -/
theorem pairwise_found (pattern : String) :
    (found s.disk p start pattern).Pairwise fun e e' =>
    e ≠ e' ∧ ¬ (e'.dropLast <+: e.dropLast ∧ e'.dropLast ≠ e.dropLast) := by
  refine pairwise_flatMap.2 ⟨fun rel _ => ?_, ?_⟩
  · refine pairwise_map.2 ((((htree.nodup_names _).filter _).filter _).imp ?_)
    intro name other hne
    rw [dropLast_concat, dropLast_concat]
    exact ⟨fun h => hne (singleton_inj.1 (append_cancel_left h)),
      fun h => h.2 rfl⟩
  · refine (Disk.pairwise_visits htree _ _).imp ?_
    intro rel rel' hbefore e he e' he'
    obtain ⟨name, -, rfl⟩ := mem_map.1 he
    obtain ⟨name', -, rfl⟩ := mem_map.1 he'
    rw [dropLast_concat, dropLast_concat]
    refine ⟨fun h => hbefore ?_, fun h => hbefore h.1⟩
    obtain rfl := List.append_inj_left' h rfl
    exact prefix_rfl

end Found

theorem joinLines_ne {t : String} (h : '/' ∈ t.toList) (ts : List String) :
    joinLines (t :: ts) ≠ "No matches" := by
  intro hsame
  have hmem : '/' ∈ (joinLines (t :: ts)).toList := by
    unfold joinLines
    cases ts with
    | nil =>
      rw [String.intercalate_singleton]
      exact h
    | cons next ts =>
      rw [String.intercalate_cons_cons, String.toList_append,
        String.toList_append]
      exact mem_append_left _ (mem_append_left _ h)
  rw [hsame] at hmem
  revert hmem
  decide

private theorem findCommand_eq {s : Site} {args : Args} {p pattern : String}
    (hpath : args.givenOr "str" (args.getD "path" (.text ".")) = .text p)
    (hname : args.getD "name" .null = .text pattern)
    (hpattern : pattern ≠ "") (hp : p.contains '\x00' = false) :
    findCommand args s = (.ok (.text
      (if (findMatches s p pattern).isEmpty then "No matches"
        else joinLines (findMatches s p pattern))), s) := by
  unfold findCommand
  dsimp only
  rw [hpath, hname, isTruthy_text hpattern]
  refine bind_of_ok (orElse_of_ok ?_)
  show (Files.checkPath p >>= _) s = _
  rw [bind_of_ok (Files.checkPath_of_not_contains hp s)]
  rfl

/-- **Files are found exactly.** On a disk that is a tree, with a directory to
start from and a text to look for, what is found are the paths of the files at
any depth below the directory whose own names have the text in them, each of
them once; the files of a directory come before those of the directories below
it. A directory is gone through if its path is short enough to be opened; if all
are, all files are looked at. The answer is that there are no matches just if
there are none, and the disk is left as it is. -/
theorem find_exact {s : Site} {args : Args} {p pattern : String} {start : Place}
    (htree : s.disk.IsTree)
    (hpath : args.givenOr "str" (args.getD "path" (.text ".")) = .text p)
    (hname : args.getD "name" .null = .text pattern)
    (hpattern : pattern ≠ "") (hp : p.contains '\x00' = false)
    (hstart : s.disk.locate s.seat p = .ok (.at_ start))
    (hdir : s.disk.isDir start = true) :
    ∃ entries : List Place, findMatches s p pattern =
      entries.map (Path.joinAll p) ∧
      (findMatches s p pattern).Nodup ∧
      (∀ e, e ∈ entries ↔ ∃ rel name, e = rel ++ [name] ∧
        s.disk.isFile (start ++ e) = true ∧
        pattern.toList <:+: name.toList ∧ Disk.opens p rel = true) ∧
      ((∀ rel, s.disk.isDir (start ++ rel) = true → Disk.opens p rel = true) →
        ∀ e, e ∈ entries ↔ ∃ rel name, e = rel ++ [name] ∧
          s.disk.isFile (start ++ e) = true ∧ pattern.toList <:+: name.toList) ∧
      (entries.Pairwise fun e e' =>
        ¬ (e'.dropLast <+: e.dropLast ∧ e'.dropLast ≠ e.dropLast)) ∧
      findCommand args s = (.ok (.text
        (if entries = [] then "No matches"
          else joinLines (entries.map (Path.joinAll p)))), s) ∧
      (findCommand args s = (.ok (.text "No matches"), s) ↔ entries = []) := by
  have hne : p.isEmpty = false := Disk.not_isEmpty_of_locate hstart
  have hfound := findMatches_eq htree hstart hdir pattern
  have hcommand := findCommand_eq (s := s) hpath hname hpattern hp
  have hpairwise : (found s.disk p start pattern).Pairwise _ :=
    pairwise_found htree pattern
  have hparts : ∀ e ∈ found s.disk p start pattern, e ≠ [] ∧
      ∀ name ∈ e, Path.IsPart name := by
    intro e he
    obtain ⟨rel, name, rfl, hfile, -, -⟩ := (mem_found_iff htree).1 he
    refine ⟨append_ne_nil_of_right_ne_nil _ (cons_ne_nil _ _), fun n hn => ?_⟩
    exact ((htree.reached_of_any hfile).names n (mem_append_right _ hn)).isPart
  rw [hfound] at hcommand ⊢
  refine ⟨found s.disk p start pattern, rfl, ?_, fun e => mem_found_iff htree,
    fun hopen e => ?_, hpairwise.imp fun h => h.2, ?_, ?_⟩
  · refine Nodup.map_on ?_ (hpairwise.imp fun h => h.1)
    intro e he e' he' hsame
    exact Path.joinAll_inj hne (hparts e he).2 (hparts e' he').2 (hparts e he).1
      (hparts e' he').1 hsame
  · rw [mem_found_iff htree]
    constructor
    · rintro ⟨rel, name, he, hfile, hname, -⟩
      exact ⟨rel, name, he, hfile, hname⟩
    · rintro ⟨rel, name, rfl, hfile, hname⟩
      refine ⟨rel, name, rfl, hfile, hname, hopen rel ?_⟩
      rw [← append_assoc] at hfile
      exact htree.isDir_of_isFile hfile
  · rw [hcommand]
    cases found s.disk p start pattern with
    | nil => rfl
    | cons e entries => rfl
  · constructor
    · intro h
      cases hentries : found s.disk p start pattern with
      | nil => rfl
      | cons e entries =>
        obtain ⟨hlast, hnames⟩ := hparts e (hentries ▸ mem_cons_self)
        rw [hcommand, hentries] at h
        have htext := Value.text.inj (Except.ok.inj (Prod.mk.inj h).1)
        exact absurd htext
          (joinLines_ne (Path.slash_mem_joinAll hne hlast hnames) _)
    · intro h
      rw [hcommand, h]
      rfl

/-- A site with a directory whose name has the text in it and files of one name
in two directories. -/
def findSite : Site :=
  { (default : Site) with
    disk := [([], ⟨.dir, 0o755, ⟨0, 0⟩⟩), (["axe"], ⟨.dir, 0o755, ⟨0, 0⟩⟩),
      (["x"], ⟨.file [], 0o644, ⟨0, 0⟩⟩),
      (["axe", "x"], ⟨.file [], 0o644, ⟨0, 0⟩⟩)]
    seat := ⟨[], false⟩ }

theorem isTree_findSite : findSite.disk.IsTree where
  distinct := by decide
  reached := by
    have haxe : findSite.disk.Reached ["axe"] :=
      Disk.reached_nil.snoc rfl ⟨rfl, rfl, rfl, by decide, by decide⟩
    have hx : Disk.IsName "x" := ⟨rfl, rfl, rfl, by decide, by decide⟩
    intro entry hentry
    simp only [findSite, mem_cons, not_mem_nil, or_false] at hentry
    rcases hentry with rfl | rfl | rfl | rfl
    · exact Disk.reached_nil
    · exact haxe
    · exact Disk.reached_nil.snoc rfl hx
    · exact haxe.snoc rfl hx

/-- Both files are found, and the directory is not. -/
theorem find_exact_axe : findSite.disk.IsTree ∧ ∃ entries : List Place,
    findMatches findSite "/" "x" = entries.map (Path.joinAll "/") ∧
    ["x"] ∈ entries ∧ ["axe", "x"] ∈ entries ∧
      ["axe"] ∉ entries ∧
      findCommand [("str", .text "/"), ("name", .text "x")] findSite ≠
        (.ok (.text "No matches"), findSite) := by
  have hpath : Args.givenOr [("str", .text "/"), ("name", .text "x")]
      "str" (.text ".") = .text "/" := rfl
  have hstart : findSite.disk.locate findSite.seat "/" = .ok (.at_ []) := rfl
  obtain ⟨entries, hfound, -, hmem, -, -, -, hnone⟩ :=
    find_exact isTree_findSite hpath rfl (by decide)
    (by simp only [String.contains_char_eq]; rfl) hstart rfl
  have hfile : ["x"] ∈ entries :=
    (hmem _).2 ⟨[], "x", rfl, rfl, by decide, by decide⟩
  refine ⟨isTree_findSite, entries, hfound, hfile,
    (hmem _).2 ⟨["axe"], "x", rfl, rfl, by decide, by decide⟩, ?_, ?_⟩
  · intro haxe
    obtain ⟨-, -, -, hdir, -, -⟩ := (hmem _).1 haxe
    cases hdir
  · intro h
    rw [hnone.1 h] at hfile
    cases hfile

end Shell

end TaskShell
