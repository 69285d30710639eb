import TaskShell.App.Session
import TaskShell.Proofs.NamedWord
import TaskShell.Proofs.ScriptLines
import TaskShell.Proofs.Trimming

/-!
# Bundles as scripts

The shell is started with a script or with a bundle. A bundle that is given as a
script is read as a text, bytes that are no text apart, and its lines are run.
The first of them begins with the mark and the length of the manifest, which
begins with a null character. So it is a line of the bundled script only if that
has a null character in it.
-/

namespace TaskShell

open Act Text List

namespace Text

/-! ## The start of a text -/

theorem decodeIgnoring_append (cs : List Char) (rest : List UInt8) :
    decodeIgnoring (utf8Of cs ++ rest) = cs ++ decodeIgnoring rest := by
  induction cs with
  | nil => rfl
  | cons c cs ih =>
    have hbytes :
        utf8Of (c :: cs) ++ rest = utf8OfChar c ++ (utf8Of cs ++ rest) := by
      rw [utf8Of, flatMap_cons, append_assoc]
      rfl
    rw [cons_append, ← ih, hbytes]
    unfold decodeIgnoring utf8Pieces
    rw [utf8PiecesFrom_utf8OfChar, filterMap_cons]

theorem fileLinesFrom_start (cs : List Char) {line : List Char}
    (h : line ≠ []) :
    ∃ first others, fileLinesFrom cs line = first :: others ∧
      line.reverse <+: first := by
  fun_induction fileLinesFrom cs line with
  | case1 => contradiction
  | case2 line hne => exact ⟨_, [], rfl, prefix_rfl⟩
  | case3 cs line ih =>
    refine ⟨_, _, rfl, ?_⟩
    rw [reverse_cons]
    exact prefix_append _ _
  | case4 c cs line hc ih =>
    obtain ⟨first, others, hlines, hstart⟩ := ih (by simp)
    refine ⟨first, others, hlines, List.IsPrefix.trans ?_ hstart⟩
    rw [reverse_cons]
    exact prefix_append _ _

theorem prefix_trimEnd {p : Char → Bool} {start cs : List Char}
    (h : start <+: cs) (hkept : ∀ c ∈ start, p c = false) :
    start <+: trimEnd p cs := by
  rw [← trimEnd_append_takeWhile p cs] at h
  rcases prefix_append_cases h with ⟨hstart, -⟩ | ⟨tail, rfl, htail⟩
  · exact hstart
  · -- the characters behind the trimmed form are all of this kind
    have hnil : tail = [] := by
      rw [eq_nil_iff_forall_not_mem]
      intro c hc
      have hdropped : p c = true := by
        have hall := all_takeWhile (p := p) (l := cs.reverse)
        exact all_eq_true.1 hall c (mem_reverse.1 (htail.subset hc))
      rw [hkept c (mem_append_right _ hc)] at hdropped
      contradiction
    simp [hnil]

private theorem infix_of_mem_breakLinesFrom {cs line piece : List Char}
    (h : piece ∈ breakLinesFrom cs line) :
    piece <:+: line.reverse ++ cs := by
  fun_induction breakLinesFrom cs line with
  | case1 => cases h
  | case2 line hne =>
    obtain rfl := mem_singleton.1 h
    exact (prefix_append _ _).isInfix
  | case3 cs line ih =>
    rcases mem_cons.1 h with rfl | h
    · exact (prefix_append _ _).isInfix
    · exact (ih h).trans ⟨line.reverse ++ ['\r', '\n'], [], by simp⟩
  | case4 c cs line hpair hbreak ih =>
    rcases mem_cons.1 h with rfl | h
    · exact (prefix_append _ _).isInfix
    · exact (ih h).trans ⟨line.reverse ++ [c], [], by simp⟩
  | case5 c cs line hpair hbreak ih => simpa using ih h

theorem infix_of_mem_breakLines {cs piece : List Char}
    (h : piece ∈ breakLines cs) : piece <:+: cs :=
  infix_of_mem_breakLinesFrom h

end Text

namespace App

open Options

/-- `scriptLines` keeps the start of the first line of a file that begins with
something to run. -/
theorem scriptLines_of_start {c : Char} {start : List Char} (rest : List Char)
    (hblank : isBlank c = false)
    (hcomment : c ≠ '#') (hreturn : '\r' ∉ c :: start)
    (hfeed : '\n' ∉ c :: start) :
    ∃ line others, scriptLines (unifyNewlines (c :: start ++ rest)) = line ::
      others ∧ c :: start <+: line.toList := by
  have hlines : fileLines (unifyNewlines (c :: start ++ rest)) =
      fileLinesFrom (unifyNewlines rest) (c :: start).reverse := by
    rw [unifyNewlines_append hreturn, fileLines,
      fileLinesFrom_of_not_mem hfeed, append_nil]
  have hne : (c :: start).reverse ≠ [] := by simp
  obtain ⟨first, others, hfirst, hstart⟩ :=
    fileLinesFrom_start (unifyNewlines rest) hne
  rw [reverse_reverse] at hstart
  have htrimmed : c :: start <+: trimEnd (· == '\n') first := by
    refine prefix_trimEnd hstart fun d hd => ?_
    exact beq_eq_false_iff_ne.2 fun heq => hfeed (heq ▸ hd)
  have hrun : runLine? (trimEnd (· == '\n') first) =
      some (String.ofList (trimEnd (· == '\n') first)) := by
    obtain ⟨tail, htail⟩ := htrimmed
    rw [← htail]
    have hkept : isPassedOver (c :: start ++ tail) = false := by
      simp [isPassedOver, trimStart, hblank, hcomment]
    unfold runLine?
    rw [hkept, if_neg Bool.false_ne_true]
  refine ⟨String.ofList (trimEnd (· == '\n') first),
    (others.map (trimEnd (· == '\n'))).filterMap runLine?, ?_, ?_⟩
  · rw [scriptLines_eq, linesOfFile, hlines, hfirst, map_cons,
      filterMap_cons_some hrun]
  · rw [String.toList_ofList]
    exact htrimmed

theorem mem_of_mem_bundledLines {c : Char} {cs : List Char} {line : String}
    (hline : line ∈ bundledLines cs) (hc : c ∈ line.toList) : c ∈ cs := by
  obtain ⟨piece, hpiece, hline⟩ := mem_filterMap.1 hline
  dsimp only at hline
  split at hline
  · cases hline
  · obtain rfl := Option.some.inj hline
    rw [String.toList_ofList] at hc
    exact (infix_of_mem_breakLines hpiece).subset (mem_of_mem_trimEnd hc)

end App

namespace Bundle

/-! ## The start of a bundle -/

private theorem bigEndian_of_lt {n : Nat}
    (h : n < 256 * 256 * 256 * 256 * 256 * 256 * 256) :
    ∃ rest, bigEndian lengthSize n = 0 :: rest := by
  have hzero : n / 256 / 256 / 256 / 256 / 256 / 256 / 256 = 0 := by omega
  have hlast : Codec.Gzip.toLittleEndian n lengthSize =
      Codec.Gzip.toLittleEndian n 7 ++ [0] := by
    simp [lengthSize, Codec.Gzip.toLittleEndian, hzero]
  refine ⟨(Codec.Gzip.toLittleEndian n 7).reverse, ?_⟩
  rw [bigEndian, hlast, reverse_append]
  rfl

/-- `pack` begins with the mark and a null character. -/
theorem pack_start (packer : Codec.Gzip.Packer) {m : Manifest}
    (h : (utf8 m.text).length ≤ 4 * 200000) (script : List UInt8) :
    ∃ rest, pack packer m script = utf8Of "LUWEXE1\x00".toList ++ rest := by
  obtain ⟨low, hlength⟩ :=
    bigEndian_of_lt (n := (utf8 m.text).length) (by omega)
  refine ⟨low ++ utf8 m.text ++ packer.pack script, ?_⟩
  have hstart : utf8Of "LUWEXE1\x00".toList = mark ++ [0] := by decide
  unfold pack
  dsimp only
  rw [hlength, hstart]
  simp

end Bundle

namespace App

open Options

theorem loadHistory_snd (p : String) (s : Site) : (loadHistory p s).2 = s := by
  have hread : (Files.readTextIgnoring p s).2 = s :=
    bind_snd (Files.readBytes_snd p s) fun _ => rfl
  refine bind_snd (x := Act.attempt (Files.readTextIgnoring p)) hread fun r =>
    ?_
  cases r with
  | ok text => rfl
  | error f => rfl

/-- The `scriptLines` of a bundle: the first begins with the mark and a null
character. -/
theorem scriptLines_pack (packer : Codec.Gzip.Packer) {m : Bundle.Manifest}
    (h : (utf8 m.text).length ≤ 4 * 200000) (script : List UInt8) :
    ∃ line others, scriptLines (unifyNewlines
      (decodeIgnoring (Bundle.pack packer m script))) = line :: others ∧
      "LUWEXE1\x00".toList <+: line.toList := by
  obtain ⟨rest, hstart⟩ := Bundle.pack_start packer h script
  rw [hstart, decodeIgnoring_append]
  exact scriptLines_of_start (decodeIgnoring rest) (by decide) (by decide)
    (by decide) (by decide)

/-! ## The command line -/

def workersArgument : Argument :=
  { wordArgument 1 "--thread-count" "thread_count" (some .int)
      "Anzahl der Worker Threads" with
    fallback := some (.int 4) }

def scriptArgument : Argument := wordArgument 2 "--script" "script" (some .text)
    "Run a LUW script file and exit"

def compileArgument : Argument :=
  wordArgument 3 "--compile" "compile" (some .text)
    "Compile a LUW script to a .le binary (no external tools)"

def binaryArgument : Argument := wordArgument 4 "--binary" "binary" (some .text)
    "Run a compiled LUW binary (.le)"

def shellParser : Parser :=
  namedParser programName "LUW Shell Initializer" [workersArgument,
    scriptArgument, compileArgument, binaryArgument]

theorem commandLine_eq (columns : Nat) :
    commandLine columns = .ok ⟨[shellParser], [], columns⟩ := by
  have hstart : Draft.ofSettings programName
    [("description", .text "LUW Shell Initializer")] columns =
      .ok ⟨[namedParser programName "LUW Shell Initializer" []], [], columns⟩ :=
    rfl
  unfold commandLine Draft.build arguments
  rw [hstart]
  refine (addAll_named (a := workersArgument) (by rfl) rfl (by decide) (by rfl)
    columns _).trans ?_
  refine (addAll_named (a := scriptArgument) (by rfl) rfl (by decide) (by rfl)
    columns _).trans ?_
  refine (addAll_named (a := compileArgument) (by rfl) rfl (by decide) (by rfl)
    columns _).trans ?_
  exact addAll_named (a := binaryArgument) (by rfl) rfl (by decide)
    (by rfl) columns []

theorem free_shellParser :
    ∀ b ∈ [workersArgument, scriptArgument, compileArgument, binaryArgument],
    b.required = false ∧ ∀ text, b.fallback ≠ some (.text text) := by
  simp only [forall_mem_cons]
  exact ⟨⟨rfl, nofun⟩, ⟨rfl, nofun⟩, ⟨rfl, nofun⟩, ⟨rfl, nofun⟩,
    forall_mem_nil _⟩

theorem takesWord_script :
    TakesWord shellParser "--script" scriptArgument "script" :=
  takesWord_of_named rfl (by decide) free_shellParser rfl rfl

theorem takesWord_binary :
    TakesWord shellParser "--binary" binaryArgument "binary" :=
  takesWord_of_named rfl (by decide) free_shellParser rfl rfl

section Paths

variable {q : String} (hdash : q.toList.head? ≠ some '-')
include hdash

/-- `readOrders` reads a path behind a name as it is, unless it begins with a
dash. -/
theorem readOrders_of_takesWord {name field : String} {a : Argument}
    (h : TakesWord shellParser name a field) (columns : Nat) :
    readOrders columns [name, q] =
      ⟨.ok (ordersOf (plainFields ((startFields shellParser).set field
        ⟨.text q, false⟩))), ⟨"", ""⟩⟩ := by
  have hlead : ∀ c, q.toList.head? = some c →
      shellParser.isPrefixChar c = false := by
    intro c hc
    rw [shellParser, isPrefixChar_named, beq_eq_false_iff_ne]
    exact fun heq => hdash (heq ▸ hc)
  have hdivider : q ≠ "--" := by
    rintro rfl
    exact hdash rfl
  have hknown := known_of_plain ⟨.installed, columns, fun name => .error name⟩ h
    hdivider (candidates?_of_head hlead .installed) columns
  unfold readOrders
  rw [commandLine_eq]
  dsimp only
  rw [hknown]
  rfl

variable (hne : q.isEmpty = false)
include hne

theorem readOrders_script (columns : Nat) :
    readOrders columns ["--script", q] =
      ⟨.ok ⟨4, some q, none, none⟩, ⟨"", ""⟩⟩ := by
  have horders : ordersOf
    (plainFields ((startFields shellParser).set "script" ⟨.text q, false⟩)) =
      ⟨4, if q.isEmpty then none else some q, none, none⟩ := rfl
  rw [readOrders_of_takesWord hdash takesWord_script, horders, hne,
    if_neg Bool.false_ne_true]

theorem readOrders_binary (columns : Nat) :
    readOrders columns ["--binary", q] =
      ⟨.ok ⟨4, none, none, some q⟩, ⟨"", ""⟩⟩ := by
  have horders : ordersOf
    (plainFields ((startFields shellParser).set "binary" ⟨.text q, false⟩)) =
      ⟨4, none, none, if q.isEmpty then none else some q⟩ := rfl
  rw [readOrders_of_takesWord hdash takesWord_binary, horders, hne,
    if_neg Bool.false_ne_true]

end Paths

/-! ## The two modes -/

section Modes

variable {σ α : Type} {first : Bool} {words : List String} {idle : σ}
  {editor : Act σ}
variable {read : α → σ → Act (Entry × σ)} {finish : σ → Act Unit}
  {inputs : List α}

def scriptSession (q : String) (lines : List String)
    (idle : σ) : Act (Course σ) := do
  log s!"Running script: {q}"
  greet
  Act.orElse (do runShown lines; Shell.waitForAll) fun f =>
    if isMissing f then log s!"Script not found: {q}"
      else log s!"Error running script: {f.message}"
  return ⟨[], .exit 0, idle⟩

def bundleSession (q : String) (lines : List String) (editor : Act σ)
    (finish : σ → Act Unit) : Act (Course σ) := do
  let s ← editor
  greet
  Act.orElse (do runSilently lines; Shell.waitForAll) fun f => do
    log s!"Failed to run binary {q}: {f.message}"
    Act.printLine s!"Failed to run binary {q}: {f.message}"
  finish s
  return ⟨[], .exit 0, s⟩

theorem prints_greet : Prints greet := (prints_log _).bind (prints_log _)

/-- `start` does what is ordered once the program is written down. -/
theorem start_of_orders {v v' : World} {orders : Orders}
    (hconfig : (if first then writeConfig else pure ()) v = (.ok (), v'))
    (horders : readOrders (Options.terminalColumns v'.env) words =
      ⟨.ok orders, ⟨"", ""⟩⟩) :
    start first words idle editor read finish inputs v =
      (if orders.script.isSome then serve orders idle (pure ⟨[], .left, idle⟩)
      else do
        let s ← editor
        let course ← serve orders s (converse read inputs s)
        finish course.editor
        return course) v' := by
  have hrest : start first words idle editor read finish inputs v =
      start false words idle editor read finish inputs v' := by
    cases first with
    | true =>
      rw [if_pos rfl] at hconfig
      conv => lhs; unfold start
      rw [if_pos rfl, bind_of_ok hconfig]
      rfl
    | false =>
      cases hconfig
      rfl
  have hprinted :
      ({ v' with out := v'.out ++ "", err := v'.err ++ "" } : World) = v' := by
    rw [String.append_empty, String.append_empty]
  rw [hrest]
  unfold start
  rw [if_neg Bool.false_ne_true]
  beta_reduce
  rw [get_bind_apply, horders, modify_bind_apply, hprinted]

section Files

variable {q : String} {v v' : World} {bytes : List UInt8}
  (hdash : q.toList.head? ≠ some '-') (hne : q.isEmpty = false)
  (hconfig : (if first then writeConfig else pure ()) v = (.ok (), v'))
  (hread : Files.readBytes q v'.toSite = (.ok bytes, v'.toSite))
include hdash hne hconfig hread

/-- `start` with a file as a script is a `scriptSession` over the lines of its
text. -/
theorem start_script :
    start first ["--script", q] idle editor read finish inputs v =
    scriptSession q
      (scriptLines (unifyNewlines (decodeIgnoring bytes))) idle v' := by
  rw [start_of_orders hconfig (readOrders_script hdash hne _),
    Option.isSome_some, if_pos rfl]
  refine Prints.bind_congr (prints_log _) fun u hu =>
    Prints.bind_congr prints_greet fun x hx => ?_
  have hread' : Files.readBytes q x.toSite = (.ok bytes, x.toSite) := by
    rw [hx, hu]
    exact hread
  exact bind_of_eq (orElse_of_eq (runScript_of_bytes hread') _) _

/-- `start` with a bundle for this shell is a `bundleSession` over the lines of
its script. Setting up the editor must leave the files as they are. -/
theorem start_binary {data : List UInt8} {fields : List (String × Value)}
    (hunpack : Bundle.unpack bytes = .ok (.record fields, data))
    (htype : fields.lookup "type" = some (.text Bundle.Interpreter.shell.name))
    (heditor : ∀ s u, editor v' = (.ok s, u) → u.toSite = v'.toSite) :
    start first ["--binary", q] idle editor read finish inputs v =
      bundleSession q (bundledLines (decodeReplacing data)) editor
        finish v' := by
  rw [start_of_orders hconfig (readOrders_binary hdash hne _),
    Option.isSome_none, if_neg Bool.false_ne_true]
  refine bind_congr_of_ok fun s u hu => ?_
  have hserve : ∀ talk, serve ⟨4, none, none, some q⟩ s talk = (do
      greet
      runBundleReported q
      return ⟨[], .exit 0, s⟩) := fun _ => rfl
  rw [hserve, bind_assoc]
  refine Prints.bind_congr prints_greet fun x hx => ?_
  have hread' : Files.readBytes q x.toSite = (.ok bytes, x.toSite) := by
    rw [hx, heditor s u hu]
    exact hread
  have hrun : (do let _ ← runBundle q; pure () : Act Unit) x =
      runBundled data x := by
    rw [bind_of_eq (runBundle_of_unpack hread' hunpack htype), bind_assoc]
    simp only [pure_bind, bind_pure_unit]
  rw [bind_assoc]
  simp only [pure_bind]
  exact bind_of_eq (orElse_of_eq hrun _) _

end Files

/-- **The lines that are run from a bundle in each of the two modes.** A script
that is no program of another language is bundled, and the bundle is stored
anywhere under a name that ends in `.le`. Started with it as a bundle, the shell
runs the lines of the script. Started with it as a script, it runs the lines of
the bundle's own bytes; the first of them begins with the mark and a null
character. The lines are therefore not the same unless the script has a null
character in it. The time of the bundling must be a number whose text is read
back, and setting up the editor must leave the files as they are. -/
theorem bundle_in_script_mode {p o script q : String} {out : Option String}
    {w u v v' : World}
    {data bytes : List UInt8} (hcompile : compile p out w = (.ok o, u))
    (hscript : resolve p w.toSite = (.ok script, w.toSite))
    (hkind : lower (Path.splitExt script).2 ≠ ".py")
    (hdata : Files.readBytes script w.toSite = (.ok data, w.toSite))
    (hclock : Json.readDocument ⟨.brief, true⟩ (Json.signs
      (Json.numberFormat.write w.host.clock)) = .ok (.float w.host.clock))
    (hbytes : Files.readBytes o u.toSite = (.ok bytes, u.toSite))
    (hname : ".le".toList <:+ (lower q).toList)
    (hdash : q.toList.head? ≠ some '-')
    (hconfig : (if first then writeConfig else pure ()) v = (.ok (), v'))
    (hread : Files.readBytes q v'.toSite = (.ok bytes, v'.toSite))
    (heditor : ∀ s x, editor v' = (.ok s, x) → x.toSite = v'.toSite) :
    ∃ line others, scriptLines (unifyNewlines (decodeIgnoring bytes)) =
      line :: others ∧
      start first ["--script", q] idle editor read finish inputs v =
        scriptSession q (line :: others) idle v' ∧
      start first ["--binary", q] idle editor read finish inputs v =
        bundleSession q (bundledLines (decodeReplacing data)) editor finish v' ∧
      "LUWEXE1\x00".toList <+: line.toList ∧
      (line :: others = bundledLines (decodeReplacing data) →
        '\x00' ∈ decodeReplacing data) := by
  obtain ⟨hpacked, hlength⟩ := bundle_of_script hcompile hscript hdata
  obtain rfl : bytes =
      Bundle.pack w.host.packer (manifestOf script w) data := by
    rw [hbytes] at hpacked
    exact Except.ok.inj (Prod.mk.inj hpacked).1
  have hne : q.isEmpty = false := by
    rw [Bool.eq_false_iff]
    intro hempty
    rw [String.isEmpty_iff.1 hempty] at hname
    revert hname
    decide
  have hshort : (utf8 (manifestOf script w).text).length ≤ 4 * 200000 :=
    Bundle.length_manifest_short (Files.length_of_readBytes hdata) w.host.clock
      w.host.version
  obtain ⟨line, others, hown, hmark⟩ :=
    scriptLines_pack w.host.packer hshort data
  refine ⟨line, others, hown, ?_, ?_, hmark, ?_⟩
  · rw [start_script hdash hne hconfig hread, hown]
  · exact start_binary hdash hne hconfig hread
      (Bundle.unpack_pack _ hlength hclock data)
      (Bundle.lookup_type hkind _ _) heditor
  · intro hsame
    have hfirst : line ∈ bundledLines (decodeReplacing data) :=
      hsame ▸ mem_cons_self
    exact mem_of_mem_bundledLines hfirst (hmark.subset (by decide))

end Modes

theorem startKept_eq (first : Bool) (words : List String)
    (inputs : List Entry) (w : World) :
    startKept first words inputs w =
      start first words [] (loadHistory (historyPath w.toSite)) readKept
      (fun entered => saveHistory (historyPath w.toSite) entered) inputs w :=
  rfl

/-- The world in which `/s.latin` has been bundled. -/
def bundledWorld (text : String) : World :=
  (compile "/s.latin" none (latinWorld text)).2

theorem compile_bundledWorld (text : String) :
    compile "/s.latin" none (latinWorld text) =
      (.ok "/s.le", bundledWorld text) := compile_latinWorld text

/-- A script of nothing but a comment: as a bundle it runs no line, but as a
script its bundle does. -/
theorem bundle_in_script_mode_comment :
    ∃ line others,
      startKept false ["--script", "/s.le"] [] (bundledWorld "# b\n") =
        scriptSession "/s.le" (line :: others) [] (bundledWorld "# b\n") ∧
      startKept false ["--binary", "/s.le"] [] (bundledWorld "# b\n") =
        bundleSession "/s.le" []
          (loadHistory (historyPath (bundledWorld "# b\n").toSite))
          (fun entered =>
            saveHistory (historyPath (bundledWorld "# b\n").toSite) entered)
          (bundledWorld "# b\n") ∧
      "LUWEXE1\x00".toList <+: line.toList := by
  have hlines : bundledLines (decodeReplacing (utf8 "# b\n")) = [] := by
    rw [utf8, decodeReplacing_of_strict (decodeStrict_utf8Of "# b\n".toList)]
    decide
  have hcompile := compile_bundledWorld "# b\n"
  generalize bundledWorld "# b\n" = u at hcompile ⊢
  obtain ⟨hpacked, -⟩ :=
    bundle_of_script hcompile (resolve_latinWorld _) (readBytes_latinWorld _)
  have hconfig : (if false then writeConfig else pure ()) u = (.ok (), u) := rfl
  have heditor : ∀ s x,
      (liftM (loadHistory (historyPath u.toSite)) : Act (List String)) u =
        (.ok s, x) → x.toSite = u.toSite := by
    intro s x hload
    rw [lift_apply] at hload
    obtain ⟨-, rfl⟩ := Prod.mk.inj hload
    exact loadHistory_snd _ _
  rw [startKept_eq, startKept_eq, ← hlines]
  obtain ⟨line, others, -, hscript, hbinary, hmark, -⟩ :=
    bundle_in_script_mode hcompile (resolve_latinWorld _)
    (by decide) (readBytes_latinWorld _) readDocument_quarterPast hpacked
      (by decide) (by decide) hconfig hpacked heditor
  exact ⟨line, others, hscript, hbinary, hmark⟩

/-- A script of one line: as a bundle it runs this line, but as a script its
bundle does not. -/
theorem bundle_modes_differ :
    ∃ lines,
      startPlain false ["--script", "/s.le"] [] (bundledWorld "echo a\n") =
        scriptSession "/s.le" lines () (bundledWorld "echo a\n") ∧
      startPlain false ["--binary", "/s.le"] [] (bundledWorld "echo a\n") =
        bundleSession "/s.le" ["echo a"] (pure ())
          pure (bundledWorld "echo a\n") ∧
      lines ≠ ["echo a"] := by
  have hlines : bundledLines (decodeReplacing (utf8 "echo a\n")) =
      ["echo a"] := by
    rw [utf8, decodeReplacing_of_strict (decodeStrict_utf8Of "echo a\n".toList)]
    decide
  have hcompile := compile_bundledWorld "echo a\n"
  generalize bundledWorld "echo a\n" = u at hcompile ⊢
  have hdata := readBytes_latinWorld "echo a\n"
  obtain ⟨hpacked, hlength⟩ :=
    bundle_of_script hcompile (resolve_latinWorld _) hdata
  have hconfig : (if false then writeConfig else pure ()) u = (.ok (), u) := rfl
  have hshort := Bundle.length_manifest_short (Files.length_of_readBytes hdata)
    quarterPast (3, 11)
  obtain ⟨line, others, hown, hmark⟩ :=
    scriptLines_pack .stored hshort (utf8 "echo a\n")
  refine ⟨line :: others, ?_, ?_, ?_⟩
  · rw [← hown]
    exact start_script (by decide) (by decide) hconfig hpacked
  · rw [← hlines]
    refine start_binary (by decide) (by decide) hconfig hpacked
      (Bundle.unpack_pack _ hlength readDocument_quarterPast _)
        (Bundle.lookup_type (by decide) _ _) fun s x hs => ?_
    cases hs
    rfl
  · intro hsame
    obtain rfl := (List.cons.inj hsame).1
    revert hmark
    decide

end App

end TaskShell
