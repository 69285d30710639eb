import TaskShell.Proofs.Splitting
import TaskShell.Proofs.Storage

/-!
# Walking along paths

A path is followed component by component, and every place on the way must be a
directory. A path in normal form has its parents resolved by name, without a
look at the disk. There are no links, so both come to the same as soon as the
path can be followed at all: the stack of names that normalising keeps is the
place at which the walk stands.
-/

namespace TaskShell

open Text List

variable {names : List String} {p name dir : String} {c : Char} {last : Cursor}
  {q place : Place} {seat : Seat}

namespace Path

/-- A component that `normalize` keeps. -/
structure IsPart (name : String) : Prop where
  nonempty : name.isEmpty = false
  dot : (name == ".") = false
  parent : (name == "..") = false
  slash : '/' ∉ name.toList

theorem components_append (before after : String) :
    components (before ++ "/" ++ after) =
      components before ++ components after :=
  pieces_append '/' before after

/-- `components` finds the names without slashes that a path is made of. -/
theorem components_intercalate (hne : names ≠ [])
    (h : ∀ name ∈ names, '/' ∉ name.toList) :
    components ("/".intercalate names) = names := by
  have hone : ∀ name ∈ names, components name = [name] := by
    intro name hname
    rw [components, pieces, splitAll_of_not_mem (h name hname), map_singleton,
      String.ofList_toList]
  induction names with
  | nil => exact absurd rfl hne
  | cons name names ih =>
    cases names with
    | nil => rw [String.intercalate_singleton, hone name mem_cons_self]
    | cons next names =>
      rw [String.intercalate_cons_cons, components_append,
        hone name mem_cons_self,
        ih (cons_ne_nil _ _) (fun n hn => h n (mem_cons_of_mem _ hn))
          (fun n hn => hone n (mem_cons_of_mem _ hn))]
      rfl

private theorem mem_of_mem_components (h : name ∈ components p)
    (hc : c ∈ name.toList) :
    c ∈ p.toList ∧ c ≠ '/' := by
  obtain ⟨piece, hpiece, rfl⟩ := mem_map.1 h
  rw [String.toList_ofList] at hc
  exact mem_of_mem_splitAll hpiece hc

theorem not_mem_of_mem_components (h : name ∈ components p) :
    '/' ∉ name.toList :=
  fun hslash => (mem_of_mem_components h hslash).2 rfl

theorem mem_intercalate (h : c ∈ ("/".intercalate names).toList) :
    c = '/' ∨ ∃ name ∈ names, c ∈ name.toList := by
  induction names with
  | nil =>
    rw [String.intercalate_nil] at h
    cases h
  | cons name names ih =>
    cases names with
    | nil =>
      rw [String.intercalate_singleton] at h
      exact .inr ⟨name, mem_cons_self, h⟩
    | cons next names =>
      rw [String.intercalate_cons_cons, String.toList_append,
        String.toList_append, mem_append, mem_append] at h
      rcases h with (h | h) | h
      · exact .inr ⟨name, mem_cons_self, h⟩
      · exact .inl (mem_singleton.1 h)
      · rcases ih h with h | ⟨other, hother, hc⟩
        · exact .inl h
        · exact .inr ⟨other, mem_cons_of_mem _ hother, hc⟩

theorem baseName_append (before : String) {last : String}
    (h : '/' ∉ last.toList) :
    baseName (before ++ "/" ++ last) = last := by
  have hchars : (before ++ "/" ++ last).toList.reverse =
      last.toList.reverse ++ '/' :: before.toList.reverse := by
    simp
  rw [baseName, baseChars, hchars, takeWhile_append_of_pos]
  · simp
  · intro c hc
    rw [bne_iff_ne]
    rintro rfl
    exact h (mem_reverse.1 hc)

theorem intercalate_snoc {root : String} (hroot : root = "/" ∨ root = "//")
    (init : List String) :
    ∃ before, ∀ last, root ++ "/".intercalate (init ++ [last]) =
      before ++ "/" ++ last := by
  cases init with
  | nil =>
    rcases hroot with rfl | rfl
    · exact ⟨"", fun last => by rw [nil_append, String.intercalate_singleton,
        String.empty_append]⟩
    · exact ⟨"/",
        fun last => by rw [nil_append, String.intercalate_singleton]; rfl⟩
  | cons name init =>
    refine ⟨root ++ "/".intercalate (name :: init), fun last => ?_⟩
    rw [String.intercalate_append_of_ne_nil (cons_ne_nil _ _) (cons_ne_nil _ _),
      String.intercalate_singleton]
    simp only [String.append_assoc]

theorem isAbsolute_iff : isAbsolute p = true ↔ ∃ rest, p = "/" ++ rest := by
  unfold isAbsolute startsWith
  rw [ isPrefixOf_iff_prefix]
  constructor
  · rintro ⟨rest, hrest⟩
    refine ⟨String.ofList rest, String.toList_inj.1 ?_⟩
    rw [String.toList_append, String.toList_ofList (l := rest)]
    exact hrest.symm
  · rintro ⟨rest, rfl⟩
    rw [String.toList_append]
    exact prefix_append _ _

theorem endsWith_slash_iff :
    endsWith p "/" = true ↔ ∃ stem, p = stem ++ "/" := by
  unfold endsWith
  rw [ isPrefixOf_iff_prefix, reverse_prefix]
  constructor
  · rintro ⟨stem, hstem⟩
    refine ⟨String.ofList stem, String.toList_inj.1 ?_⟩
    rw [String.toList_append, String.toList_ofList (l := stem)]
    exact hstem.symm
  · rintro ⟨stem, rfl⟩
    rw [String.toList_append]
    exact suffix_append _ _

theorem components_ne_nil (p : String) : components p ≠ [] := by
  rw [components, pieces, ne_eq, map_eq_nil_iff]
  exact splitAll_ne_nil _ _

theorem components_slash (stem : String) :
    components (stem ++ "/") = components stem ++ [""] := by
  have happend := components_append stem ""
  rw [String.append_empty] at happend
  exact happend

theorem isAbsolute_join (hdir : isAbsolute dir = true) (p : String) :
    isAbsolute (join dir p) = true := by
  cases hp : isAbsolute p with
  | true =>
    unfold join
    rw [hp, if_pos rfl, hp]
  | false =>
    obtain ⟨rest, rfl⟩ := isAbsolute_iff.1 hdir
    rw [isAbsolute_iff]
    unfold join
    rw [hp, if_neg Bool.false_ne_true]
    split
    · exact ⟨_, by rw [String.append_assoc]⟩
    · exact ⟨_, by rw [String.append_assoc, String.append_assoc]⟩

theorem components_absolute (rest : String) :
    components ("/" ++ rest) = "" :: components rest := by
  have hempty : "/" ++ rest = "" ++ "/" ++ rest := by rw [String.empty_append]
  rw [hempty, components_append]
  rfl

end Path

namespace Disk

variable {d : Disk}

/-! ## Steps and walks -/

theorem isDir_of_step {next : Cursor} (h : d.step (.at_ q) name = .ok next) :
    d.isDir q = true := by
  unfold step at h
  dsimp only at h
  cases hq : d.get? q with
  | none =>
    rw [hq] at h
    cases h
  | some node =>
    rw [hq] at h
    dsimp only at h
    split at h
    · cases h
    · next hdir =>
      rw [isDir_of_get? hq, ← Bool.not_eq_false,
        ← Bool.not_eq_true']; exact hdir

theorem step_of_isDir (h : d.isDir q = true) (name : String) :
    d.step (.at_ q) name =
    if name.isEmpty || name == "." then .ok (.at_ q)
    else if name == ".." then .ok (.at_ q.dropLast)
    else if maxName < (utf8 name).length then .error .nameTooLong
    else .ok (.at_ (q ++ [name])) := by
  obtain ⟨node, hq, hdir⟩ := get?_of_isDir h
  unfold step
  dsimp only
  rw [hq]
  dsimp only
  rw [hdir]
  rfl

theorem walk_append (cursor : Cursor) (before after : List String) :
    d.walk cursor (before ++ after) = d.walk cursor before >>=
      fun last => d.walk last after := by
  induction before generalizing cursor with
  | nil => rfl
  | cons name before ih =>
    rw [cons_append, walk, walk]
    cases d.step cursor name with
    | error code => rfl
    | ok next => exact ih next

theorem place_of_walk (h : d.walk (.at_ q) names = .ok last) :
    ∃ r, last = .at_ r := by
  induction names generalizing q with
  | nil =>
    cases h
    exact ⟨q, rfl⟩
  | cons name names ih =>
    rw [walk] at h
    cases hstep : d.step (.at_ q) name with
    | error code =>
      rw [hstep] at h
      cases h
    | ok next =>
      rw [hstep] at h
      have hnext : ∃ r, next = .at_ r := by
        rw [step_of_isDir (isDir_of_step hstep)] at hstep
        split at hstep
        · exact ⟨q, (Except.ok.inj hstep).symm⟩
        · split at hstep
          · exact ⟨q.dropLast, (Except.ok.inj hstep).symm⟩
          · split at hstep
            · cases hstep
            · exact ⟨q ++ [name], (Except.ok.inj hstep).symm⟩
      obtain ⟨r, rfl⟩ := hnext
      exact ih h

/-- `walk` stays where it is at an empty component at the end, which is a
directory. -/
theorem walk_of_slash {cursor : Cursor}
    (h : d.walk cursor (names ++ [""]) = .ok (.at_ q)) :
    d.walk cursor names = .ok (.at_ q) ∧ d.isDir q = true := by
  rw [walk_append] at h
  cases hnames : d.walk cursor names with
  | error code =>
    rw [hnames] at h
    cases h
  | ok last =>
    rw [hnames] at h
    cases last with
    | lost r => cases h
    | at_ r =>
      have hstep : d.step (.at_ r) "" = .ok (.at_ q) := by
        have hlast : (d.step (.at_ r) "" >>= fun next => d.walk next []) =
            .ok (.at_ q) := h
        cases hone : d.step (.at_ r) "" with
        | error code =>
          rw [hone] at hlast
          cases hlast
        | ok next =>
          rw [hone] at hlast
          exact hlast
      have hdir := isDir_of_step hstep
      rw [step_of_isDir hdir] at hstep
      cases hstep
      exact ⟨rfl, hdir⟩

def start (seat : Seat) (p : String) : Cursor :=
  if Path.isAbsolute p then .at_ [] else if seat.removed then .lost seat.place
    else .at_ seat.place

/-- The `components` of a path that are walked. -/
def steps (p : String) : List String :=
  if Path.isAbsolute p then (Path.components p).drop 1 else Path.components p

theorem steps_append {before after : List String} (hbefore : before ≠ [])
    (h : Path.components p = before ++ after) :
    steps p =
      (if Path.isAbsolute p then before.drop 1 else before) ++ after := by
  unfold steps
  rw [h]
  split
  · exact drop_append_of_le_length (length_pos_iff.2 hbefore)
  · rfl

/-- `locate` walks a path that is neither empty nor too long. -/
theorem locate_eq_walk (hne : p.isEmpty = false)
    (hshort : (utf8 p).length < maxPath) :
    d.locate seat p = d.walk (start seat p) (steps p) := by
  unfold locate
  rw [hne, if_neg Bool.false_ne_true, if_neg (Nat.not_le.2 hshort)]
  rfl

theorem walk_of_locate (h : d.locate seat p = .ok last) :
    d.walk (start seat p) (steps p) = .ok last := by
  have hshort := length_of_locate h
  cases hne : p.isEmpty with
  | true =>
    rw [locate, hne] at h
    cases h
  | false => rw [← h, locate_eq_walk hne hshort]

/-- **`locate` leads to a directory along a path that ends with a slash.** -/
theorem isDir_of_asksDir (hasks : Files.asksDir p = true)
    (h : d.locate seat p = .ok (.at_ place)) : d.isDir place = true := by
  -- the last component is empty, and a step along it stays where it is
  obtain ⟨stem, rfl⟩ := Path.endsWith_slash_iff.1 hasks
  have hsteps :=
    steps_append (Path.components_ne_nil stem) (Path.components_slash stem)
  exact (walk_of_slash (hsteps ▸ walk_of_locate h)).2

/-! ## Normal paths -/

/-- A name that a component of a path can have, if it is neither that of a
directory itself nor that of its parent. -/
structure IsName (name : String) : Prop where
  nonempty : name.isEmpty = false
  dot : (name == ".") = false
  parent : (name == "..") = false
  slash : '/' ∉ name.toList
  short : (utf8 name).length ≤ maxName

theorem IsName.isPart (h : IsName name) :
    Path.IsPart name := ⟨h.nonempty, h.dot, h.parent, h.slash⟩

/-- A place that can be reached from the root: its names are names of
components, and the places above it are directories. -/
structure Reached (d : Disk) (q : Place) : Prop where
  names : ∀ name ∈ q, IsName name
  above : ∀ r, r <+: q → r ≠ q → d.isDir r = true

theorem reached_nil : d.Reached [] :=
  ⟨fun _ hname => absurd hname not_mem_nil,
    fun _ hr hne => absurd (prefix_nil.1 hr) hne⟩

theorem Reached.of_prefix {r : Place} (h : d.Reached q) (hr : r <+: q) :
    d.Reached r where
  names name hname := h.names name (hr.subset hname)
  above s hs hne := by
    refine h.above s (hs.trans hr) ?_
    rintro rfl
    exact hne (hs.eq_of_length_le hr.length_le)

theorem Reached.snoc (h : d.Reached q) (hdir : d.isDir q = true)
    (hname : IsName name) :
    d.Reached (q ++ [name]) where
  names other hother := by
    rcases mem_append.1 hother with hother | hother
    · exact h.names other hother
    · rw [mem_singleton.1 hother]
      exact hname
  above r hr hne := by
    rcases prefix_concat_iff.1 hr with hr | hr
    · exact absurd hr hne
    · by_cases hq : r = q
      · rw [hq]
        exact hdir
      · exact h.above r hr hq

/-- A place that is `Reached` is reached by a `walk` along its names, from any
place above it. -/
theorem Reached.walk (h : d.Reached (q ++ names)) :
    d.walk (.at_ q) names = .ok (.at_ (q ++ names)) := by
  induction names generalizing q with
  | nil =>
    rw [append_nil]
    rfl
  | cons name names ih =>
    have hname : IsName name := h.names name (mem_append_right _ mem_cons_self)
    have hdir : d.isDir q = true := by
      refine h.above q (prefix_append _ _) ?_
      intro hq
      exact cons_ne_nil _ _ (self_eq_append_right.1 hq)
    have hstep : d.step (.at_ q) name = .ok (.at_ (q ++ [name])) := by
      rw [step_of_isDir hdir, hname.nonempty, hname.dot, hname.parent, if_neg
        (by decide), if_neg (by decide), if_neg (Nat.not_lt.2 hname.short)]
    rw [append_cons] at h ⊢
    rw [Disk.walk, hstep]
    exact ih h

private theorem step_normal {next : Cursor} (hq : d.Reached q)
    (hslash : '/' ∉ name.toList) (h : d.step (.at_ q) name = .ok next) :
    ∃ r, next = .at_ r ∧ d.Reached r ∧
      r.reverse = Path.normalStep true q.reverse name := by
  have hdir := isDir_of_step h
  rw [step_of_isDir hdir] at h
  unfold Path.normalStep
  split at h
  · next hstay =>
    cases h
    exact ⟨q, rfl, hq, by rw [if_pos hstay]⟩
  · next hstay =>
    rw [if_neg hstay]
    split at h
    · next hup =>
      cases h
      refine ⟨q.dropLast, rfl, hq.of_prefix ( dropLast_prefix q), ?_⟩
      rw [if_pos hup]
      cases hrev : q.reverse with
      | nil =>
        rw [reverse_eq_nil_iff.1 hrev]
        rfl
      | cons top rest =>
        have htop : (top == "..") = false :=
          (hq.names top
            (by rw [← mem_reverse, hrev]; exact mem_cons_self)).parent
        have hlast : q.dropLast.reverse = rest := by
          rw [← tail_reverse, hrev, tail_cons]
        rw [hlast]
        dsimp only
        rw [htop]
        rfl
    · next hup =>
      split at h
      · cases h
      · next hshort =>
        cases h
        simp only [Bool.or_eq_true, not_or, Bool.not_eq_true] at hstay
        refine ⟨q ++ [name], rfl, hq.snoc hdir ⟨hstay.1, hstay.2,
          Bool.eq_false_iff.2 hup, hslash, Nat.not_lt.1 hshort⟩, ?_⟩
        rw [if_neg hup, reverse_append]
        rfl

/-- **`normalStep` keeps the place of a walk.** -/
theorem walk_normal (hq : d.Reached q)
    (hslash : ∀ name ∈ names, '/' ∉ name.toList)
    (h : d.walk (.at_ q) names = .ok last) :
    ∃ r, last = .at_ r ∧ d.Reached r ∧
      r.reverse = names.foldl (Path.normalStep true) q.reverse := by
  induction names generalizing q with
  | nil =>
    cases h
    exact ⟨q, rfl, hq, rfl⟩
  | cons name names ih =>
    rw [Disk.walk] at h
    cases hstep : d.step (.at_ q) name with
    | error code =>
      rw [hstep] at h
      cases h
    | ok next =>
      rw [hstep] at h
      obtain ⟨r, rfl, hr, hrev⟩ :=
        step_normal hq (hslash name mem_cons_self) hstep
      obtain ⟨t, rfl, ht, hfold⟩ :=
        ih hr (fun n hn => hslash n (mem_cons_of_mem _ hn)) h
      exact ⟨t, rfl, ht, by rw [hfold, hrev, foldl_cons]⟩

/-! ## Absolute paths -/

private theorem foldl_names (h : ∀ name ∈ q, Path.IsPart name)
    (done : List String) :
    q.foldl (Path.normalStep true) done = q.reverse ++ done := by
  induction q generalizing done with
  | nil => rfl
  | cons name q ih =>
    have hname := h name mem_cons_self
    have hpush : Path.normalStep true done name = name :: done := by
      unfold Path.normalStep
      rw [hname.nonempty, hname.dot, hname.parent, if_neg (by decide),
        if_neg (by decide)]
    rw [foldl_cons, hpush, ih fun n hn => h n (mem_cons_of_mem _ hn),
      reverse_cons, append_assoc]
    rfl

theorem foldl_empty (done : List String) :
    [""].foldl (Path.normalStep true) done = done := rfl

theorem foldl_placeText (h : ∀ name ∈ q, Path.IsPart name) :
    (Path.components (placeText q)).foldl (Path.normalStep true) [] =
      q.reverse := by
  rw [placeText, Path.components_absolute, ← singleton_append,
    foldl_append, foldl_empty]
  cases q with
  | nil => rfl
  | cons name q =>
    rw [Path.components_intercalate (cons_ne_nil _ _) fun n hn =>
      (h n hn).slash, foldl_names h, append_nil]

theorem isAbsolute_placeText (q : Place) :
    Path.isAbsolute (placeText q) = true :=
  Path.isAbsolute_iff.2 ⟨_, rfl⟩

theorem foldl_join (hdir : Path.isAbsolute dir = true)
    (hp : Path.isAbsolute p = false) :
    (Path.components (Path.join dir p)).foldl (Path.normalStep true) [] =
      (Path.components p).foldl (Path.normalStep true)
        ((Path.components dir).foldl (Path.normalStep true) []) := by
  obtain ⟨rest, rfl⟩ := Path.isAbsolute_iff.1 hdir
  have hne : ("/" ++ rest).isEmpty = false := by simp
  unfold Path.join
  rw [hp, if_neg Bool.false_ne_true, hne, Bool.false_or]
  split
  · next hends =>
    -- the directory ends with an empty component, which changes no stack
    obtain ⟨stem, hstem⟩ := Path.endsWith_slash_iff.1 hends
    rw [hstem, Path.components_append, Path.components_slash, foldl_append,
      foldl_append, foldl_empty]
  · rw [Path.components_append, foldl_append]

theorem rootOf_of_isAbsolute (h : Path.isAbsolute p = true) :
    Path.rootOf p = "/" ∨ Path.rootOf p = "//" := by
  unfold Path.rootOf
  split
  · exact .inl rfl
  · split
    · exact .inr rfl
    · have hslash : startsWith p "/" = true := h
      rw [if_pos hslash]
      exact .inl rfl

/-- `normalize` makes a path of the stack of an absolute path. -/
theorem normalize_of_isAbsolute (h : Path.isAbsolute p = true) :
    Path.normalize p =
    Path.rootOf p ++ "/".intercalate
      ((Path.components p).foldl (Path.normalStep true) []).reverse := by
  have hroot : (Path.rootOf p).isEmpty = false := by
    rcases rootOf_of_isAbsolute h with hroot | hroot <;> rw [hroot] <;> rfl
  have hpath : ∀ rest : String, (Path.rootOf p ++ rest).isEmpty = false := by
    intro rest
    rw [Bool.eq_false_iff, ne_eq, String.isEmpty_iff,
      String.append_eq_empty_iff]
    rintro ⟨hempty, -⟩
    rw [hempty] at hroot
    cases hroot
  unfold Path.normalize
  dsimp only
  rw [hroot, hpath, if_neg Bool.false_ne_true]
  rfl

private theorem mem_foldl_normalStep {done : List String}
    (h : name ∈ names.foldl (Path.normalStep true) done) :
    name ∈ done ∨ name ∈ names ∧ name.isEmpty = false ∧ name ≠ "." := by
  induction names generalizing done with
  | nil => exact .inl h
  | cons first names ih =>
    rcases ih h with hdone | ⟨hmem, hname⟩
    · unfold Path.normalStep at hdone
      split at hdone
      · exact .inl hdone
      · next hstay =>
        simp only [Bool.or_eq_true, not_or, Bool.not_eq_true] at hstay
        split at hdone
        · split at hdone
          · exact .inl hdone
          · next top rest =>
            split at hdone
            · next htop =>
              rcases mem_cons.1 hdone with rfl | hdone
              · rw [beq_iff_eq.1 htop]
                exact .inl mem_cons_self
              · exact .inl hdone
            · exact .inl (mem_cons_of_mem _ hdone)
        · rcases mem_cons.1 hdone with rfl | hdone
          · exact .inr ⟨mem_cons_self, hstay.1, beq_eq_false_iff_ne.1 hstay.2⟩
          · exact .inl hdone
    · exact .inr ⟨mem_cons_of_mem _ hmem, hname⟩

theorem absoluteIn_names (hdir : Path.isAbsolute dir = true) (p : String) :
    ∃ root names, (root = "/" ∨ root = "//") ∧
      Path.absoluteIn dir p = root ++ "/".intercalate names ∧
      ∀ name ∈ names, name ∈ Path.components (Path.join dir p) ∧
        name.isEmpty = false ∧ name ≠ "." := by
  have habsolute := Path.isAbsolute_join hdir p
  refine ⟨_, _, rootOf_of_isAbsolute habsolute,
    normalize_of_isAbsolute habsolute, ?_⟩
  intro name hname
  rcases mem_foldl_normalStep (mem_reverse.1 hname) with hnone | hname
  · cases hnone
  · exact hname

/-- `absoluteIn` gives the root, or a path that ends with a name. -/
theorem absoluteIn_last (hdir : Path.isAbsolute dir = true) (p : String) :
    (Path.absoluteIn dir p = "/" ∨ Path.absoluteIn dir p = "//") ∨
      ∃ before last, Path.absoluteIn dir p = before ++ "/" ++ last ∧
        '/' ∉ last.toList ∧ last.isEmpty = false ∧
        last ≠ "." := by
  obtain ⟨root, names, hroot, hnormal, hnames⟩ := absoluteIn_names hdir p
  rw [hnormal]
  rcases eq_nil_or_concat names with rfl | ⟨init, last, rfl⟩
  · left
    rw [String.intercalate_nil, String.append_empty]
    exact hroot
  · right
    obtain ⟨hmem, hlast⟩ := hnames last (by simp)
    obtain ⟨before, hbefore⟩ := Path.intercalate_snoc hroot init
    rw [concat_eq_append, hbefore]
    exact ⟨before, last, rfl, Path.not_mem_of_mem_components hmem, hlast⟩

theorem mem_of_mem_absoluteIn (hdir : Path.isAbsolute dir = true)
    (h : c ∈ (Path.absoluteIn dir p).toList) :
    c = '/' ∨ c ∈ dir.toList ∨ c ∈ p.toList := by
  obtain ⟨root, names, hroot, hnormal, hnames⟩ := absoluteIn_names hdir p
  rw [hnormal, String.toList_append, mem_append] at h
  rcases h with h | h
  · rcases hroot with rfl | rfl
    · exact .inl (mem_singleton.1 h)
    · have hslashes : "//".toList = ['/', '/'] := rfl
      rw [hslashes] at h
      simp only [mem_cons, not_mem_nil, or_false, or_self] at h
      exact .inl h
  · rcases Path.mem_intercalate h with h | ⟨name, hname, hc⟩
    · exact .inl h
    · have hjoin := (Path.mem_of_mem_components (hnames name hname).1 hc).1
      unfold Path.join at hjoin
      split at hjoin
      · exact .inr (.inr hjoin)
      · split at hjoin
        · rw [String.toList_append, mem_append] at hjoin
          exact .inr hjoin
        · rw [String.toList_append, String.toList_append, mem_append,
            mem_append] at hjoin
          rcases hjoin with (hjoin | hjoin) | hjoin
          · exact .inr (.inl hjoin)
          · exact .inl (mem_singleton.1 hjoin)
          · exact .inr (.inr hjoin)

/-- `absoluteIn` gives the text of the place that a path leads to, up to a
doubled slash. -/
theorem absoluteIn_of_locate (hseat : seat.removed = false)
    (hreached : d.Reached seat.place) (h : d.locate seat p = .ok (.at_ place)) :
    d.Reached place ∧ ∃ root, (root = "/" ∨ root = "//") ∧
      Path.absoluteIn (placeText seat.place) p =
        root ++ "/".intercalate place := by
  have hslash : ∀ name ∈ Path.components p, '/' ∉ name.toList :=
    fun name => Path.not_mem_of_mem_components
  have hwalk := walk_of_locate h
  unfold start steps at hwalk
  cases hp : Path.isAbsolute p with
  | true =>
    have hjoin : Path.join (placeText seat.place) p = p := by
      unfold Path.join
      rw [hp, if_pos rfl]
    have hstack : (Path.components p).foldl (Path.normalStep true) [] =
        ((Path.components p).drop 1).foldl (Path.normalStep true) [] := by
      obtain ⟨rest, rfl⟩ := Path.isAbsolute_iff.1 hp
      rw [Path.components_absolute]
      rfl
    rw [hp, if_pos rfl, if_pos rfl] at hwalk
    obtain ⟨r, hr, hreach, hfold⟩ :=
      walk_normal reached_nil (fun name hname =>
        hslash name (mem_of_mem_drop hname)) hwalk
    cases hr
    refine ⟨hreach, Path.rootOf p, rootOf_of_isAbsolute hp, ?_⟩
    rw [Path.absoluteIn, hjoin, normalize_of_isAbsolute hp, hstack,
      ← reverse_nil, ← hfold, reverse_reverse]
  | false =>
    have habsolute := Path.isAbsolute_join (isAbsolute_placeText seat.place) p
    rw [hp, if_neg Bool.false_ne_true, if_neg Bool.false_ne_true, hseat,
      if_neg Bool.false_ne_true] at hwalk
    obtain ⟨r, hr, hreach, hfold⟩ := walk_normal hreached hslash hwalk
    cases hr
    refine ⟨hreach, _, rootOf_of_isAbsolute habsolute, ?_⟩
    rw [Path.absoluteIn, normalize_of_isAbsolute habsolute,
      foldl_join (isAbsolute_placeText _) hp, foldl_placeText (fun name hname =>
        (hreached.names name hname).isPart), ← hfold, reverse_reverse]

/-- `locate` finds a place that is `Reached` by its text, if that is not too
long. -/
theorem Reached.locate (h : d.Reached place) (hroot : d.isDir [] = true)
    {root : String} (hslashes : root = "/" ∨ root = "//")
    (hshort : (utf8 (root ++ "/".intercalate place)).length < maxPath)
    (seat : Seat) :
    d.locate seat (root ++ "/".intercalate place) = .ok (.at_ place) := by
  have hstay : d.step (.at_ []) "" = .ok (.at_ []) := by
    rw [step_of_isDir hroot]
    rfl
  have hnames : d.walk (.at_ []) (Path.components ("/".intercalate place)) =
      .ok (.at_ place) := by
    cases place with
    | nil =>
      show (d.step (.at_ []) "" >>= fun next => d.walk next []) = _
      rw [hstay]
      rfl
    | cons name place =>
      rw [Path.components_intercalate (cons_ne_nil _ _) fun n hn =>
        (h.names n hn).slash]
      exact Reached.walk (q := []) h
  have habsolute : Path.isAbsolute (root ++ "/".intercalate place) = true := by
    rw [Path.isAbsolute_iff]
    rcases hslashes with rfl | rfl
    · exact ⟨_, rfl⟩
    · exact ⟨"/" ++ "/".intercalate place, by rw [← String.append_assoc]; rfl⟩
  have hne : (root ++ "/".intercalate place).isEmpty = false := by
    rw [Bool.eq_false_iff, ne_eq, String.isEmpty_iff,
      String.append_eq_empty_iff]
    rintro ⟨hempty, -⟩
    rw [hempty] at hslashes
    revert hslashes
    decide
  rw [locate_eq_walk hne hshort, start, steps, habsolute,
    if_pos rfl, if_pos rfl]
  rcases hslashes with rfl | rfl
  · rw [Path.components_absolute]
    exact hnames
  · have hdouble : "//" ++ "/".intercalate place =
        "/" ++ ("/" ++ "/".intercalate place) := by
      rw [← String.append_assoc]
      rfl
    rw [hdouble, Path.components_absolute, Path.components_absolute, drop_one,
      tail_cons, Disk.walk, hstay]
    exact hnames

/-- **A path that leads to a place does so by its `absoluteIn` form**, if that
is not too long. -/
theorem locate_absoluteIn (hseat : seat.removed = false)
    (hreached : d.Reached seat.place) (hroot : d.isDir [] = true)
    (h : d.locate seat p = .ok (.at_ place))
    (hshort : (utf8 (Path.absoluteIn (placeText seat.place) p)).length <
      maxPath) :
    d.locate seat (Path.absoluteIn (placeText seat.place) p) =
      .ok (.at_ place) := by
  obtain ⟨hplace, root, hslashes, hnormal⟩ :=
    absoluteIn_of_locate hseat hreached h
  rw [hnormal] at hshort ⊢
  exact hplace.locate hroot hslashes hshort seat

end Disk

end TaskShell
