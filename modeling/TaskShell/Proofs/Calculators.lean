import TaskShell.Proofs.Action
import TaskShell.Proofs.Caret
import TaskShell.Proofs.NamedWord

/-!
# The two calculators

The command for calculations hands the text of an expression to the calculator
program, as the word behind `--input`. Plain arithmetic reads the same text. For
expressions of whole numbers the two give the same number unless one of three
things comes between them: the text looks like a name on the command line, which
depends on the `Manner` in which negative numbers are told from names, a caret
means another thing to each of them, or the number has too many digits to be
written.
-/

namespace TaskShell.Calc

open Options Text List

/-! ## The program's command line -/

def inputArgument : Argument := wordArgument 1 "--input" "input" (some .text)
    "Mathematischer Ausdruck, z.B. '2+2*3'"

def operationArgument : Argument :=
  { wordArgument 2 "--operation" "operation" none
      "Operation (add, sub, mul, div, pow, mod, sqrt, log)" with
    choices := some (operationNames.map .text) }

def leftArgument : Argument :=
  wordArgument 3 "--a" "a" (some .float) "Erster Wert"

def rightArgument : Argument :=
  wordArgument 4 "--b" "b" (some .float) "Zweiter Wert (optional)"

def calcParser : Parser :=
  namedParser "calc.exe" "Kommandozeilen-Rechner mit Argumenten"
    [inputArgument, operationArgument, leftArgument, rightArgument]

theorem commandLine_eq (columns : Nat) :
    commandLine "calc.exe" columns = .ok ⟨[calcParser], [], columns⟩ := by
  have hstart : Draft.ofSettings "calc.exe"
    [("description", .text "Kommandozeilen-Rechner mit Argumenten")] columns =
      .ok ⟨[namedParser "calc.exe" "Kommandozeilen-Rechner mit Argumenten" []],
        [], columns⟩ := rfl
  unfold commandLine Draft.build parts
  rw [hstart]
  refine (addAll_named (a := inputArgument) (by rfl) rfl (by decide) (by rfl)
    columns _).trans ?_
  refine (addAll_named (a := operationArgument) (by rfl) rfl (by decide)
    (by rfl) columns _).trans ?_
  refine (addAll_named (a := leftArgument) (by rfl) rfl (by decide) (by rfl)
    columns _).trans ?_
  exact addAll_named (a := rightArgument) (by rfl) rfl (by decide)
    (by rfl) columns []

theorem takesWord_input :
    TakesWord calcParser "--input" inputArgument "input" := by
  refine takesWord_of_named rfl (by decide) ?_ rfl rfl
  simp only [forall_mem_cons]
  exact ⟨⟨rfl, nofun⟩, ⟨rfl, nofun⟩, ⟨rfl, nofun⟩, ⟨rfl, nofun⟩,
    forall_mem_nil _⟩

/-! ## Texts of whole numbers -/

def isWholeChar (c : Char) : Bool :=
  c.isDigit || "_()+-*^ \t\n".toList.contains c

/-- A text that the command line takes for a name: it begins with a dash, is no
number to the `manner` and has no blank. -/
def IsOptionLike (manner : Manner) (text : String) : Prop :=
  text.toList.head? = some '-' ∧ manner.isNumber text = false ∧
    ' ' ∉ text.toList

section Whole

variable {text : String} (hchars : ∀ c ∈ text.toList, isWholeChar c = true)
include hchars

theorem not_mem_of_whole {c : Char} (hc : isWholeChar c = false) :
    c ∉ text.toList := by
  intro hmem
  rw [hchars c hmem] at hc
  contradiction

private theorem unlike_of_whole (hlength : 2 ≤ text.toList.length)
    (hdivider : text ≠ "--") : Unlike calcParser text := by
  have hnames : calcParser.names.map (·.1) =
      ["-h", "--help", "--input", "--operation", "--a", "--b"] := rfl
  refine ⟨not_mem_of_whole hchars (by decide), ?_, ?_⟩
  · -- a longer beginning of a name has a letter in it
    have hstarts :
      ∀ name ∈ ["-h", "--help", "--input", "--operation", "--a", "--b"],
      ∀ n ≤ name.toList.length,
        (name.toList.take n).all isWholeChar = true →
        name.toList.take n = ['-', '-'] ∨ n < 2 := by decide
    rw [hnames]
    intro name hname
    rw [startsWith, Bool.eq_false_iff, ne_eq, isPrefixOf_iff_prefix]
    intro hbegins
    have htake := prefix_iff_eq_take.1 hbegins
    have hall :
        (name.toList.take text.toList.length).all isWholeChar = true := by
      rw [← htake, all_eq_true]
      exact hchars
    rcases hstarts name hname _ hbegins.length_le hall with hdashes | hshort
    · rw [← htake] at hdashes
      exact hdivider (String.toList_inj.1 hdashes)
    · omega
  · -- and so has a name of two characters
    have hletters :
      ∀ name ∈ ["-h", "--help", "--input", "--operation", "--a", "--b"],
        name.toList.all isWholeChar = false := by decide
    rw [hnames]
    intro name hname hshort
    have hall : name.toList.all isWholeChar = true := by
      rw [hshort, String.toList_ofList, all_eq_true]
      exact fun c hc => hchars c (mem_of_mem_take hc)
    rw [hletters name hname] at hall
    contradiction

/-- `candidates?` takes a text of whole numbers for a name just if it is
`IsOptionLike`. -/
theorem candidates?_of_whole (hdash : text ≠ "-") (hdivider : text ≠ "--")
    (manner : Manner) :
    (¬ IsOptionLike manner text → candidates? manner calcParser text = none) ∧
      (IsOptionLike manner text → candidates? manner calcParser text =
        some [⟨none, text, none, none⟩]) := by
  have hlead : ∀ c, calcParser.isPrefixChar c = (c == '-') :=
    isPrefixChar_named _ _ _
  cases hhead : text.toList with
  | nil =>
    refine ⟨fun _ => candidates?_of_head (by simp [hhead]) _, fun h => ?_⟩
    have hdash := h.1
    rw [hhead] at hdash
    cases hdash
  | cons c rest =>
    by_cases hc : c = '-'
    · subst hc
      cases rest with
      | nil => exact absurd (String.toList_inj.1 hhead) hdash
      | cons d rest =>
        have hunlike := unlike_of_whole hchars (by rw [hhead]; simp) hdivider
        rw [candidates?_of_unlike hunlike hhead (hlead '-') rfl manner]
        constructor
        · intro hlike
          rw [if_pos]
          by_contra hnot
          rw [not_or, Bool.not_eq_true] at hnot
          exact hlike ⟨by rw [hhead]; rfl, hnot.1, hnot.2⟩
        · rintro ⟨-, hnegative, hblank⟩
          rw [if_neg]
          rw [hnegative]
          simp [hblank]
    · refine ⟨fun _ => candidates?_of_head ?_ _, fun h => ?_⟩
      · rw [hhead]
        rintro d ⟨⟩
        rw [hlead, beq_eq_false_iff_ne]
        exact hc
      · have := h.1
        rw [hhead] at this
        exact absurd (Option.some.inj this) hc

end Whole

/-! ## The program -/

theorem parseTrimmed_of_parse {cs : List Char} {e : Expr}
    (h : parse cs = .ok e) : parseTrimmed cs = .ok e := by
  have hself : cs.dropWhile (fun c => c == ' ' || c == '\t') = cs := by
    cases cs with
    | nil => rfl
    | cons c rest =>
      rw [dropWhile_cons_of_neg]
      rw [Bool.or_eq_true, beq_iff_eq, beq_iff_eq]
      rintro (rfl | rfl)
      · cases h
      · cases h
  rw [parseTrimmed, hself, h]

theorem ne_of_parse {text : String} {e : Expr} (h : parse text.toList = .ok e) :
    text ≠ "" ∧ text ≠ "-" ∧ text ≠ "--" := by
  refine ⟨?_, ?_, ?_⟩
  · rintro rfl
    cases h
  · rintro rfl
    cases h
  · rintro rfl
    cases h

section Program

variable {text : String} (hchars : ∀ c ∈ text.toList, isWholeChar c = true)
  {e : Expr}
variable (hparse : parse text.toList = .ok e) {manner : Manner}
include hchars hparse

/-- A text that is not `IsOptionLike` is calculated. -/
theorem run_of_plain (hlike : ¬ IsOptionLike manner text) (columns : Nat) :
    run manner "calc.exe" columns ["--input", text] =
      report (calculate text.toList) := by
  obtain ⟨hne, hdash, hdivider⟩ := ne_of_parse hparse
  have hplain := (candidates?_of_whole hchars hdash hdivider manner).1 hlike
  obtain ⟨fields, hfields⟩ : ∃ fields, (startFields calcParser).set "input"
    ⟨.text text, false⟩ = fields := ⟨_, rfl⟩
  have hcall := parse_of_plain ⟨manner, columns, fun name => .error name⟩
    takesWord_input hdivider hplain columns
  rw [hfields] at hcall
  have hlookup : (plainFields fields).lookup "input" = some (.text text) := by
    rw [← hfields]
    rfl
  have hanswer : ∀ help, answer help (plainFields fields) =
      report (calculate text.toList) := by
    intro help
    have hempty : text.isEmpty = false := by rwa [String.isEmpty_eq_false_iff]
    unfold answer
    rw [hlookup]
    dsimp only
    rw [hempty, if_neg Bool.false_ne_true]
  unfold run
  rw [commandLine_eq]
  dsimp only
  rw [hcall]
  exact hanswer _

/-- A text that is `IsOptionLike` is refused. -/
theorem run_of_optionLike (hlike : IsOptionLike manner text) (columns : Nat) :
    (run manner "calc.exe" columns ["--input", text]).code = 2 := by
  obtain ⟨-, hdash, hdivider⟩ := ne_of_parse hparse
  have hname := (candidates?_of_whole hchars hdash hdivider manner).2 hlike
  obtain ⟨console, hstop⟩ := parse_of_name
    ⟨manner, columns, fun name => .error name⟩ takesWord_input hdivider hname
    (Nat.le_refl 1) rfl columns ⟨"", ""⟩
  unfold run
  rw [commandLine_eq]
  dsimp only
  rw [hstop]

end Program

end TaskShell.Calc

namespace TaskShell.Shell

open Act Calc Text List

/-! ## The command -/

def calcLine (site : Site) (text : String) : List String :=
  [Path.join site.host.helperDir "calc.exe", "--input", text]

private theorem mem_of_mem_join {c : Char} {dir p : String}
    (h : c ∈ (Path.join dir p).toList) :
    c ∈ dir.toList ∨ c = '/' ∨ c ∈ p.toList := by
  unfold Path.join at h
  split at h
  · exact .inr (.inr h)
  · split at h
    · rw [String.toList_append, mem_append] at h
      exact h.imp_right .inr
    · rw [String.toList_append, String.toList_append, mem_append,
        mem_append] at h
      rcases h with (h | h) | h
      · exact .inl h
      · exact .inr (.inl (mem_singleton.1 h))
      · exact .inr (.inr h)

/-- `calcCommand` gives what the program prints if it ends well, and else fails
with its code. -/
theorem calcCommand_apply {site : Site}
    (hdir : '\x00' ∉ site.host.helperDir.toList) {text : String}
    (htext : '\x00' ∉ text.toList) {printout : Printout}
    (hrun : Calc.run site.host.manner "calc.exe"
      (Options.terminalColumns site.env) ["--input", text] = printout) :
    calcCommand [("str", .text text)] site =
      if printout.code = 0 then (.ok (.text printout.out), site)
      else (.error (.exitCode (calcLine site text) printout.code), site) := by
  have hpath : '\x00' ∉ (Path.join site.host.helperDir "calc.exe").toList := by
    intro hmem
    rcases mem_of_mem_join hmem with h | h | h
    · exact hdir h
    · revert h
      decide
    · revert h
      decide
  have hnul : (calcLine site text).any (·.contains '\x00') = false := by
    have hcontains : ∀ s : String, '\x00' ∉ s.toList →
        s.contains '\x00' = false := by
      intro s hs
      rw [String.contains_char_eq]
      simpa using hs
    simp only [calcLine, any_cons, any_nil, hcontains _ hpath,
      hcontains _ htext, hcontains "--input" (by decide), Bool.or_false]
  have hinside : helperPrintout site "calc.exe" ["--input", text] =
      some (printout.out, (printout.code : Int)) := by
    rw [← hrun]
    rfl
  have hhelper : runHelper "calc.exe" ["--input", text] site =
      if printout.code = 0 then (.ok printout.out, site)
      else (.error (.exitCode (calcLine site text) printout.code), site) := by
    have habsolute : Path.isAbsolute "calc.exe" = false := by rfl
    unfold runHelper
    rw [get_bind_apply]
    dsimp only
    rw [show (Path.join site.host.helperDir "calc.exe" :: ["--input", text]) =
      calcLine site text from rfl, hnul, habsolute, hinside,
      if_neg Bool.false_ne_true, if_neg Bool.false_ne_true]
    dsimp only
    rw [pure_bind]
    by_cases hcode : printout.code = 0
    · rw [if_pos hcode, if_pos (by simp [hcode])]
      rfl
    · rw [if_neg hcode, if_neg (by simp [hcode])]
      rfl
  show (pure text >>= fun s => runHelper "calc.exe" ["--input", s] >>=
    fun out => pure (.text out) : Job Value) site = _
  rw [pure_bind]
  by_cases hcode : printout.code = 0
  · rw [if_pos hcode] at hhelper ⊢
    exact bind_of_ok hhelper
  · rw [if_neg hcode] at hhelper ⊢
    exact bind_of_error hhelper

/-- `calculate` writes the `wholeValue` of an expression in the sense of the
program. -/
theorem calculate_whole {cs : List Char} {e : Expr} (hparse : parse cs = .ok e)
    (hwhole : IsWhole e) :
    calculate cs = (Quantity.int (wholeValue Int.xor e)).text := by
  unfold calculate
  rw [parseTrimmed_of_parse hparse]
  dsimp only [bind, Except.bind]
  rw [evaluate_whole hwhole]
  dsimp only [Datum.display]
  rw [Datum.shown]

/-- Whether a number has too many digits to be written. -/
def IsHuge (n : Int) : Prop := n.natAbs ≥ Nat.pow 10 4300

theorem text_of_huge {n : Int} (h : IsHuge n) :
    (Quantity.int n).text = .error (.value ValueFault.hugeInteger.message) := by
  rw [Quantity.text]
  exact if_pos h

private theorem text_of_not_huge {n : Int} (h : ¬ IsHuge n) :
    (Quantity.int n).text = .ok (toString n) := by
  rw [Quantity.text]
  exact if_neg h

theorem calcCommand_whole {site : Site}
    (hdir : '\x00' ∉ site.host.helperDir.toList) {text : String} {e : Expr}
    (hchars : ∀ c ∈ text.toList, isWholeChar c = true)
    (hparse : parse text.toList = .ok e) (hwhole : IsWhole e) :
    (IsOptionLike site.host.manner text →
      calcCommand [("str", .text text)] site =
        (.error (.exitCode (calcLine site text) 2), site)) ∧
    (¬ IsOptionLike site.host.manner text → IsHuge (wholeValue Int.xor e) →
      calcCommand [("str", .text text)] site =
        (.error (.exitCode (calcLine site text) 1), site)) ∧
    (¬ IsOptionLike site.host.manner text → ¬ IsHuge (wholeValue Int.xor e) →
      calcCommand [("str", .text text)] site =
        (.ok (.text (toString (wholeValue Int.xor e) ++ "\n")), site)) := by
  have htext := not_mem_of_whole hchars (c := '\x00') (by decide)
  refine ⟨fun hlike => ?_, fun hlike hhuge => ?_, fun hlike hhuge => ?_⟩
  · have hcode :=
      run_of_optionLike hchars hparse hlike (Options.terminalColumns site.env)
    rw [calcCommand_apply hdir htext rfl, hcode]
    rfl
  · have hrun :=
      run_of_plain hchars hparse hlike (Options.terminalColumns site.env)
    rw [calculate_whole hparse hwhole, text_of_huge hhuge] at hrun
    rw [calcCommand_apply hdir htext hrun]
    rfl
  · have hrun :=
      run_of_plain hchars hparse hlike (Options.terminalColumns site.env)
    rw [calculate_whole hparse hwhole, text_of_not_huge hhuge] at hrun
    rw [calcCommand_apply hdir htext hrun]
    rfl

private theorem eq_of_toString_eq {a b : Int}
    (h : toString a = toString b) : a = b := by
  have hdigits :
      ∀ {m n : Nat}, Nat.toDigits 10 m = Nat.toDigits 10 n → m = n := by
    intro m n hsame
    rw [← Nat.ofDigitChars_toDigits (b := 10) (n := m) (by decide) (by decide),
      hsame, Nat.ofDigitChars_toDigits (by decide) (by decide)]
  have hpositive : ∀ m : Nat, (toString (Int.ofNat m)).toList =
      Nat.toDigits 10 m := fun m => Nat.toList_repr
  have hnegative : ∀ m : Nat, (toString (Int.negSucc m)).toList =
      '-' :: Nat.toDigits 10 (m + 1) := by
    intro m
    show ("-" ++ Nat.repr (m + 1)).toList = _
    rw [String.toList_append, Nat.toList_repr]
    rfl
  -- a dash is no digit
  have hdash : ∀ m n : Nat, Nat.toDigits 10 m ≠ '-' :: Nat.toDigits 10 n := by
    intro m n hsame
    have hdigit := Nat.isDigit_of_mem_toDigits (by decide) (by decide) (hsame ▸
      mem_cons_self)
    revert hdigit
    decide
  have hlist := congrArg String.toList h
  cases a with
  | ofNat m =>
    cases b with
    | ofNat n =>
      rw [hpositive, hpositive] at hlist
      rw [hdigits hlist]
    | negSucc n =>
      rw [hpositive, hnegative] at hlist
      exact absurd hlist (hdash m _)
  | negSucc m =>
    cases b with
    | ofNat n =>
      rw [hpositive, hnegative] at hlist
      exact absurd hlist.symm (hdash n _)
    | negSucc n =>
      rw [hnegative, hnegative] at hlist
      have hsucc := hdigits (tail_eq_of_cons_eq hlist)
      rw [Nat.succ.inj hsucc]

/-- **The two calculators.** If plain arithmetic gives a whole number for an
expression of whole numbers, then the command gives this number just if the text
does not look like a name, the number can be written and the caret as exclusive
or comes to the same. Without a caret it does; a caret between numbers without
one comes to the same only in `1 ^ 0`. A text that looks like a name makes the
command fail. -/
theorem calculators_agree_iff {site : Site}
    (hdir : '\x00' ∉ site.host.helperDir.toList) {text : String} {e : Expr}
    {r : Int} (hchars : ∀ c ∈ text.toList, isWholeChar c = true)
    (hparse : parse text.toList = .ok e) (hwhole : IsWhole e)
    (hr : arithmetic e = .ok (.int r)) :
    (calcCommand [("str", .text text)] site =
      (.ok (.text (toString r ++ "\n")), site) ↔
      ¬ IsOptionLike site.host.manner text ∧ ¬ IsHuge r ∧
      wholeValue Int.xor e = r) ∧
    wholeValue power e = r ∧
    (hasCaret e = false → wholeValue Int.xor e = r) ∧
    (∀ left right, e = .binary .bitXor left right → hasCaret left = false →
      hasCaret right = false →
      (wholeValue Int.xor e = r ↔ wholeValue power left = 1 ∧
        wholeValue power right = 0)) ∧
    (IsOptionLike site.host.manner text →
      calcCommand [("str", .text text)] site =
        (.error (.exitCode (calcLine site text) 2), site)) := by
  obtain ⟨hoption, hlong, hshort⟩ := calcCommand_whole hdir hchars hparse hwhole
  have hpower : wholeValue power e = r := by
    rcases arithmetic_whole hwhole _ hr with hvalue | hnone
    · exact (Quantity.int.inj hvalue).symm
    · cases hnone
  refine ⟨⟨fun hgives => ?_, ?_⟩, hpower, ?_, ?_, hoption⟩
  · by_cases hlike : IsOptionLike site.host.manner text
    · rw [hoption hlike] at hgives
      cases hgives
    · by_cases hhuge : IsHuge (wholeValue Int.xor e)
      · rw [hlong hlike hhuge] at hgives
        cases hgives
      · rw [hshort hlike hhuge] at hgives
        have htexts : toString (wholeValue Int.xor e) ++ "\n" =
            toString r ++ "\n" := by
          injection hgives with hgives
          injection hgives with hgives
          injection hgives
        have hsame : wholeValue Int.xor e = r := by
          rw [← String.toList_inj, String.toList_append, String.toList_append,
            append_cancel_right_eq, String.toList_inj] at htexts
          exact eq_of_toString_eq htexts
        exact ⟨hlike, hsame ▸ hhuge, hsame⟩
  · rintro ⟨hlike, hhuge, hsame⟩
    rw [← hsame] at hhuge ⊢
    exact hshort hlike hhuge
  · intro hfree
    rw [wholeValue_of_no_caret hwhole hfree Int.xor power, hpower]
  · rintro left right rfl hfreeLeft hfreeRight
    cases hwhole with
    | binary _ hleft hright =>
      exact caret_agrees_iff hleft hright ⟨hfreeLeft, hfreeRight⟩ hr

theorem not_isHuge_of_lt {n : Int} (h : n.natAbs < 10) : ¬ IsHuge n := by
  have hpow : ∀ k, 1 ≤ k → 10 ≤ Nat.pow 10 k :=
    fun k hk => Nat.pow_le_pow_right (by decide : 0 < 10) hk
  exact fun hhuge => Nat.lt_irrefl _
    (Nat.lt_of_lt_of_le h (Nat.le_trans (hpow 4300 (by decide)) hhuge))

/-- A site whose calculator reads its command line in a given manner. -/
def calcSite (manner : Options.Manner) : Site :=
  { (default : World).toSite
    with host := { (default : Host) with manner := manner } }

/-- A text with a dash in front passes if there is a blank in it. -/
theorem calculators_agree_iff_blank :
    calcCommand [("str", .text "-2 * (3 - 4)")] (calcSite .installed) =
      (.ok (.text "2\n"), calcSite .installed) := by
  have htokens : tokensOf "-2 * (3 - 4)".toList =
      .ok [.sign "-", .int 2, .sign "*", .sign "(", .int 3, .sign "-", .int 4,
        .sign ")"] := by rfl
  have hread : readTop [.sign "-", .int 2, .sign "*", .sign "(", .int 3,
    .sign "-", .int 4, .sign ")"] [] 9 =
      .ok (.binary .mul (.unary .minus (.number (.int 2)))
        (.binary .sub (.number (.int 3)) (.number (.int 4)))) := by rfl
  have hparse : parse "-2 * (3 - 4)".toList =
      .ok (.binary .mul (.unary .minus (.number (.int 2)))
        (.binary .sub (.number (.int 3)) (.number (.int 4)))) := by
    show (tokensOf "-2 * (3 - 4)".toList >>= _) = _
    rw [htokens]
    exact hread
  have hwhole : IsWhole
      (.binary .mul (.unary .minus (.number (.int 2)))
        (.binary .sub (.number (.int 3)) (.number (.int 4)))) :=
    .binary (by decide) (.minus (.number 2))
      (.binary (by decide) (.number 3) (.number 4))
  have hlike : ¬ IsOptionLike .installed "-2 * (3 - 4)" :=
    fun h => h.2.2 (by decide)
  have hdir :
      '\x00' ∉ (calcSite .installed).host.helperDir.toList := not_mem_nil
  exact (calculators_agree_iff (r := 2) hdir (all_eq_true.1 (by decide)) hparse
    hwhole rfl).1.2 ⟨hlike, not_isHuge_of_lt (by decide), rfl⟩

/-- To plain arithmetic `2^3` is eight and `-(1+2)` is minus three. Whatever
counts as a negative number, the command gives one for the first text and fails
on the second. -/
theorem calculators_differ :
    (∃ e, parse "2^3".toList = .ok e ∧ arithmetic e = .ok (.int 8)) ∧
    (∃ e, parse "-(1+2)".toList = .ok e ∧ arithmetic e = .ok (.int (-3))) ∧
    ∀ manner : Options.Manner,
      calcCommand [("str", .text "2^3")] (calcSite manner) =
        (.ok (.text "1\n"), calcSite manner) ∧
      calcCommand [("str", .text "-(1+2)")] (calcSite manner) =
        (.error (.exitCode (calcLine (calcSite manner) "-(1+2)") 2),
          calcSite manner) := by
  have hcaret : parse "2^3".toList =
      .ok (.binary .bitXor (.number (.int 2)) (.number (.int 3))) := by rfl
  have htokens : tokensOf "-(1+2)".toList =
      .ok [.sign "-", .sign "(", .int 1, .sign "+", .int 2, .sign ")"] := by rfl
  have hread :
    readTop [.sign "-", .sign "(", .int 1, .sign "+", .int 2, .sign ")"] [] 7 =
      .ok (.unary .minus
        (.binary .add (.number (.int 1)) (.number (.int 2)))) := by rfl
  have hsum : parse "-(1+2)".toList =
      .ok (.unary .minus
        (.binary .add (.number (.int 1)) (.number (.int 2)))) := by
    show (tokensOf "-(1+2)".toList >>= _) = _
    rw [htokens]
    exact hread
  refine ⟨⟨_, hcaret, rfl⟩, ⟨_, hsum, rfl⟩, fun manner => ?_⟩
  have hlike : IsOptionLike manner "-(1+2)" := by
    refine ⟨by rfl, ?_, by decide⟩
    unfold Options.Manner.isNumber
    split
    · rfl
    · rfl
  have hunlike : ¬ IsOptionLike manner "2^3" := by
    rintro ⟨hhead, -⟩
    exact absurd hhead (by decide)
  have hdir : '\x00' ∉ (calcSite manner).host.helperDir.toList := not_mem_nil
  constructor
  · exact (calcCommand_whole hdir (all_eq_true.1 (by decide)) hcaret
      (.binary (by decide) (.number 2) (.number 3))).2.2 hunlike
        (not_isHuge_of_lt (by decide))
  · exact (calcCommand_whole hdir (all_eq_true.1 (by decide)) hsum
      (.minus (.binary (by decide) (.number 1) (.number 2)))).1 hlike

end TaskShell.Shell
