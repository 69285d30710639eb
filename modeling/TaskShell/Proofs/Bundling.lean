import Mathlib.Data.List.TakeDrop
import TaskShell.App.Binary
import TaskShell.Proofs.JsonNumbers
import TaskShell.Proofs.Storage
import TaskShell.Proofs.Utf8

/-!
# Bundles are read back

A bundle is cut at a length that is written into it. The length counts the bytes
of the manifest, so a manifest with any characters in it is cut off where it
ends. It fits into its eight bytes because a path that can be read from is
short, and each of its characters is written with few bytes.
-/

namespace TaskShell

open Act Text List

variable {m : Manifest} {p o : String} {w u : World} {out : Option String}

/-! ## Sizes -/

namespace Text

private theorem length_utf8OfChar (c : Char) :
    0 < (utf8OfChar c).length ∧ (utf8OfChar c).length ≤ 4 := by
  unfold utf8OfChar
  dsimp only
  split
  · simp
  · split
    · simp
    · split <;> simp

theorem length_utf8Of (cs : List Char) :
    cs.length ≤ (utf8Of cs).length ∧ (utf8Of cs).length ≤ 4 * cs.length := by
  induction cs with
  | nil => exact ⟨Nat.le_refl _, Nat.le_refl _⟩
  | cons c cs ih =>
    have hc := length_utf8OfChar c
    have hcons : utf8Of (c :: cs) = utf8OfChar c ++ utf8Of cs := flatMap_cons
    rw [hcons, length_append, length_cons]
    omega

end Text

namespace Path

theorem length_baseName_le (p : String) :
    (baseName p).toList.length ≤ p.toList.length := by
  rw [baseName, baseChars, String.toList_ofList, length_reverse]
  have htake := (takeWhile_sublist (· != '/') (l := p.toList.reverse)).length_le
  rwa [length_reverse] at htake

private theorem length_splitBase_le (base : List Char) :
    (splitBase base).1.length ≤ base.length := by
  unfold splitBase
  rw [span_eq_takeWhile_dropWhile]
  split
  · exact Nat.le_refl _
  · next ext dot stem hspan =>
    have hdrop := (dropWhile_sublist (· != '.') (l := base.reverse)).length_le
    rw [(Prod.mk.inj hspan).2, length_cons, length_reverse] at hdrop
    split
    · exact Nat.le_refl _
    · rw [length_reverse]
      omega

theorem length_splitExt_le (p : String) :
    (splitExt p).1.toList.length ≤ p.toList.length := by
  have hbase := length_splitBase_le (baseChars p.toList)
  have hsplit : (headChars p.toList).length + (baseChars p.toList).length =
      p.toList.length := by
    rw [headChars, baseChars, length_reverse, length_reverse, Nat.add_comm,
      ← length_append, takeWhile_append_dropWhile, length_reverse]
  unfold splitExt
  dsimp only
  rw [String.toList_ofList, length_append]
  omega

end Path

namespace Json

private theorem length_signText_le (c : Sign) :
    (signText false c).length ≤ 6 := by
  cases c with
  | half n => exact Nat.succ_le_succ (Nat.zero_le 5)
  | scalar c =>
    show ((charText false c).map Sign.scalar).length ≤ 6
    rw [length_map]
    rcases charText_cases c with ⟨e, htext, -, -⟩ | ⟨htext, -⟩ | ⟨htext, -⟩
    · simp [htext]
    · rw [htext]
      exact Nat.le_refl _
    · simp [htext]

theorem length_stringText_le (cs : List Sign) :
    (stringText false cs).length ≤ 6 * cs.length + 2 := by
  have hsigns : (cs.flatMap (signText false)).length ≤ 6 * cs.length := by
    induction cs with
    | nil => exact Nat.le_refl _
    | cons c cs ih =>
      have hc := length_signText_le c
      rw [flatMap_cons, length_append, length_cons]
      omega
  rw [stringText, length_append, length_cons, length_singleton]
  omega

section OneLine

variable {l : Layout} (hindent : l.indent = none)
  (hitem : (signs l.itemSeparator).length ≤ 2)
  (hkey : (signs l.keySeparator).length ≤ 2) {n : Nat}

include hindent

theorem length_newline (level : Nat) : (newline l level).length = 0 := by
  rw [newline, hindent]
  rfl

include hitem

private theorem length_writeFields_le (fields : Fields) :
    (writeFields l 1 fields).length ≤ (fieldsText l 1 fields).length + 2 := by
  cases fields with
  | nil =>
    rw [writeFields_nil]
    exact Nat.zero_le _
  | cons field fields =>
    obtain ⟨k, v⟩ := field
    rw [writeFields_cons, length_append, length_append, length_newline hindent]
    omega

include hkey

private theorem length_fieldsText_le {fields : Fields}
    (h : ∀ field ∈ fields, (stringText l.ascii field.1).length +
      (write l 1 field.2).length ≤ n) :
    (fieldsText l 1 fields).length ≤ fields.length * (n + 4) := by
  induction fields with
  | nil => exact Nat.zero_le _
  | cons field fields ih =>
    obtain ⟨k, v⟩ := field
    have hfield := h (k, v) mem_cons_self
    have hrest := ih fun field hmem => h field (mem_cons_of_mem _ hmem)
    have hmore := length_writeFields_le hindent hitem fields
    rw [fieldsText, length_append, length_append, length_append,
      length_cons, Nat.succ_mul]
    dsimp only at hfield
    omega

theorem length_record_le {fields : Fields}
    (h : ∀ field ∈ fields, (stringText l.ascii field.1).length +
      (write l 1 field.2).length ≤ n) :
    (write l 0 (.record fields)).length ≤ fields.length * (n + 4) + 2 := by
  cases fields with
  | nil =>
    rw [write]
    exact Nat.le_add_left _ _
  | cons field fields =>
    obtain ⟨k, v⟩ := field
    have hall : (fieldsText l (0 + 1) ((k, v) :: fields)).length ≤
        ((k, v) :: fields).length * (n + 4) :=
      length_fieldsText_le hindent hitem hkey h
    rw [write_record, length_cons, length_append, length_append, length_append,
      length_newline hindent, length_newline hindent, length_singleton]
    omega

end OneLine

end Json

namespace Bundle

/-! ## Framing -/

theorem length_bigEndian (count n : Nat) :
    (bigEndian count n).length = count := by
  rw [bigEndian, length_reverse, Codec.Gzip.length_toLittleEndian]

private theorem ofBigEndian_bigEndian {count n : Nat}
    (h : n < Nat.pow 256 count) :
    ofBigEndian (bigEndian count n) = n := by
  rw [ofBigEndian, bigEndian, reverse_reverse,
    Codec.Gzip.littleEndian_toLittleEndian h]

/-- `sections` cuts what follows the mark and a length at this length. -/
theorem sections_append {n : Nat} (h : n ≤ maxLength) (rest : List UInt8) :
    sections (mark ++ bigEndian lengthSize n ++ rest) =
      .ok ⟨rest.take n, rest.drop n⟩ := by
  have hfits : n < Nat.pow 256 lengthSize := Nat.lt_of_le_of_lt h (by decide)
  have hlength := length_bigEndian lengthSize n
  unfold sections
  dsimp only
  rw [append_assoc, take_left, drop_left, bne_self_eq_false,
    if_neg Bool.false_ne_true, List.take_left' hlength, List.drop_left' hlength,
    ofBigEndian_bigEndian hfits, if_neg (Nat.not_lt.2 h)]

/-- **A bundle is cut into the parts it was made of**, whatever `Packer` made
it. -/
theorem sections_pack (packer : Codec.Gzip.Packer)
    (h : (utf8 m.text).length ≤ maxLength) (script : List UInt8) :
    sections (pack packer m script) =
      .ok ⟨utf8 m.text, packer.pack script⟩ := by
  unfold pack
  dsimp only
  rw [append_assoc _ (utf8 m.text), sections_append h, take_left, drop_left]

/-! ## Manifests -/

theorem faithful_line :
    Json.Layout.Faithful { Json.Layout.line with ascii := false } where
  ascii := rfl
  indent unit h := by cases h
  item := ⟨[.scalar ' '], rfl, rfl⟩
  key := ⟨[.scalar ' '], rfl, rfl⟩

theorem signs_text (m : Manifest) :
    Json.signs m.text = Json.write { Json.Layout.line with ascii := false } 0
      (.ofValue (.record m.fields)) :=
  (Json.whole_write _ 0 (.record m.fields)).signs_textOf

theorem readManifest_text {s : Json.Settings}
    (h : Json.readDocument s (Json.signs (Json.numberFormat.write m.created)) =
      .ok (.float m.created)) :
    readManifest (utf8 m.text) = .ok (.record m.fields) := by
  have hnames : (["name", "entry", "created", "py_version",
      "type"].map Json.signs).Nodup := by decide
  have hlegible : Json.Legible (.ofValue (.record m.fields)) :=
    ⟨hnames, trivial, trivial, Json.legible_float h, trivial, trivial, trivial⟩
  unfold readManifest
  rw [utf8, decodeStrict_utf8Of]
  dsimp only
  rw [← Json.signs, signs_text, Json.readDocument_write faithful_line hlegible]
  exact congrArg Except.ok (Json.toValue_ofValue _)

/-- **Reading a bundle gives what it was made of**, whatever `Packer` made
it. -/
theorem unpack_pack (packer : Codec.Gzip.Packer) {s : Json.Settings}
    (hlength : (utf8 m.text).length ≤ maxLength)
    (h : Json.readDocument s (Json.signs (Json.numberFormat.write m.created)) =
      .ok (.float m.created)) (script : List UInt8) :
    unpack (pack packer m script) = .ok (.record m.fields, script) := by
  unfold unpack
  simp only [sections_pack packer hlength script, bind, Except.bind,
    readManifest_text h, packer.decompress_pack]

theorem length_textField_le {t k : String} (ht : t.toList.length < 4096)
    (hk : k.toList.length ≤ 10) :
    (Json.stringText false (Json.signs k)).length +
      (Json.stringText false (Json.signs t)).length ≤ 30000 := by
  have hname := Json.length_stringText_le (Json.signs k)
  have htext := Json.length_stringText_le (Json.signs t)
  rw [Json.length_signs] at hname htext
  omega

theorem length_text_le (hname : m.name.toList.length < 4096)
    (hentry : m.entry.toList.length < 4096)
    (hversion : m.version.toList.length < 4096) :
    m.text.toList.length ≤ 200000 := by
  have hfields : ∀ field ∈ Json.Doc.ofFields m.fields,
    (Json.stringText false field.1).length +
      (Json.write { Json.Layout.line with ascii := false } 1 field.2).length ≤
        30000 := by
    intro field hfield
    simp only [Manifest.fields, Json.Doc.ofFields, Json.Doc.ofValue, mem_cons,
      not_mem_nil, or_false] at hfield
    rcases hfield with rfl | rfl | rfl | rfl | rfl
    · exact length_textField_le hname (by simp)
    · exact length_textField_le hentry (by simp)
    · have hcreated := Json.length_write_le m.created
      have hkey : (Json.stringText false (Json.signs "created")).length ≤
          6 * 7 + 2 := Json.length_stringText_le _
      rw [Json.write]
      dsimp only
      rw [Json.length_signs]
      omega
    · exact length_textField_le hversion (by simp)
    · refine length_textField_le ?_ (by simp)
      cases m.interpreter <;> simp [Interpreter.name]
  have hchars := Json.length_record_le
    (l := { Json.Layout.line with ascii := false }) rfl (by decide)
    (by decide) hfields
  have hcount : (Json.Doc.ofFields m.fields).length = 5 := rfl
  rw [hcount] at hchars
  rw [← Json.length_signs, signs_text]
  exact Nat.le_trans hchars (by decide)

private theorem fields_ofPath (p : String) (created : Float)
    (version : String) :
    (Manifest.ofPath p created version).fields =
      [("name", .text (Path.splitExt (Path.baseName p)).1),
        ("entry", .text (Path.baseName p)),
        ("created", .float created), ("py_version", .text version),
        ("type", .text (Interpreter.ofPath p).name)] := by
  rw [Manifest.fields, Manifest.ofPath]

/-- A script that is no program of another language is bundled for this
shell. -/
theorem lookup_type (h : lower (Path.splitExt p).2 ≠ ".py") (created : Float)
    (version : String) :
    (Manifest.ofPath p created version).fields.lookup "type" =
      some (.text Interpreter.shell.name) := by
  have hshell : Interpreter.ofPath p = .shell := by
    unfold Interpreter.ofPath
    rw [if_neg (mt beq_iff_eq.1 h)]
  rw [fields_ofPath, hshell]
  rfl

theorem ofPath_name (p : String) (created : Float) (version : String) :
    (Manifest.ofPath p created version).name =
      (Path.splitExt (Path.baseName p)).1 := by
  -- not by `rfl`, which would compare the two projections by splitting the path
  rw [Manifest.ofPath]

theorem ofPath_entry (p : String) (created : Float) (version : String) :
    (Manifest.ofPath p created version).entry = Path.baseName p := by
  rw [Manifest.ofPath]

private theorem length_versionText_le (version : UInt8 × UInt8) :
    (App.versionText version).toList.length ≤ 7 := by
  have hpart : ∀ n : UInt8, (toString n).toList.length ≤ 3 :=
    fun n => Json.length_toString_le (Nat.lt_trans n.toNat_lt (by decide))
  have hmajor := hpart version.1
  have hminor := hpart version.2
  show (toString version.1 ++ "." ++ toString version.2).toList.length ≤ 7
  simp only [String.toList_append, length_append]
  have hdot : ".".toList.length = 1 := rfl
  omega

theorem length_manifest_short (h : (utf8 p).length < Disk.maxPath)
    (created : Float) (version : UInt8 × UInt8) :
    (utf8 (Manifest.ofPath p created (App.versionText version)).text).length ≤
      4 * 200000 := by
  have hp : p.toList.length < 4096 :=
    Nat.lt_of_le_of_lt (length_utf8Of p.toList).1 h
  have hentry := Path.length_baseName_le p
  have hname := Path.length_splitExt_le (Path.baseName p)
  have hversion := length_versionText_le version
  have hchars : (Manifest.ofPath p created
      (App.versionText version)).text.toList.length ≤ 200000 := by
    apply length_text_le
    · rw [ofPath_name]
      omega
    · rw [ofPath_entry]
      omega
    · exact Nat.lt_of_le_of_lt hversion (by decide)
  calc (utf8 (Manifest.ofPath p created (App.versionText version)).text).length
      ≤ 4 * (Manifest.ofPath p created
        (App.versionText version)).text.toList.length := (length_utf8Of _).2
    _ ≤ 4 * 200000 := Nat.mul_le_mul_left 4 hchars

theorem length_manifest_le (h : (utf8 p).length < Disk.maxPath)
    (created : Float) (version : UInt8 × UInt8) :
    (utf8 (Manifest.ofPath p created (App.versionText version)).text).length ≤
      maxLength :=
  Nat.le_trans (length_manifest_short h created version) (by decide)

end Bundle

namespace App

/-! ## Bundling a script -/

theorem ok_of_workingDir {s t : Site} {dir : String}
    (h : Files.workingDir s = (.ok dir, t)) : s = t := by
  rw [← Files.workingDir_snd s, h]

theorem resolve_snd (p : String) (s : Site) : (resolve p s).2 = s := by
  unfold resolve
  rw [get_bind_apply]
  split
  · rfl
  · refine bind_snd (Files.workingDir_snd s) fun cwd => ?_
    cases (candidates cwd s.host.appDir p).find? (Files.isFile s) with
    | none => rfl
    | some found => rfl

theorem ok_of_resolve {script : String} {s t : Site}
    (h : resolve p s = (.ok script, t)) : s = t := by
  rw [← resolve_snd p s, h]

theorem ok_of_absolutePath {full : String}
    (h : absolutePath p w = (.ok full, u)) : w = u := by
  unfold absolutePath at h
  split at h
  · exact (ok_of_pure h).2
  · obtain ⟨cwd, v, hcwd, h⟩ := ok_of_bind h
    obtain ⟨hsite, hv⟩ := ok_of_lift hcwd
    have hsame := ok_of_workingDir hsite
    rw [← (ok_of_pure h).2, hv, ← hsame]

/-- The `Manifest` that a script gets in a world. -/
def manifestOf (script : String) (w : World) : Bundle.Manifest :=
  .ofPath script w.host.clock (versionText w.host.version)

/-- `compile` reads the script that the path names and writes its bundle to the
path that it gives, which is that of the bundle of the script if no other is
asked for. -/
theorem ok_of_compile (h : compile p out w = (.ok o, u)) :
    ∃ script data, resolve p w.toSite = (.ok script, w.toSite) ∧
      Files.readBytes script w.toSite = (.ok data, w.toSite) ∧
      Files.writeBytes o (Bundle.pack w.host.packer (manifestOf script w) data)
        w.toSite = (.ok (), u.toSite) ∧
      u = { w with toSite := u.toSite } ∧
      (out = none → absolutePath (bundlePath script) w = (.ok o, w)) := by
  obtain ⟨script, w₁, hresolve, h⟩ := ok_of_bind h
  obtain ⟨hsite, hw⟩ := ok_of_lift hresolve
  have hsame := ok_of_resolve hsite
  rw [← hsame] at hsite hw
  subst hw
  obtain ⟨data, w₂, hread, h⟩ := ok_of_bind h
  obtain ⟨hbytes, hw⟩ := ok_of_lift hread
  have hsame := (Files.ok_of_readBytes hbytes).1
  rw [← hsame] at hbytes hw
  subst hw
  rw [get_bind_apply] at h
  obtain ⟨target, w₃, htarget, h⟩ := ok_of_bind h
  obtain rfl := ok_of_absolutePath htarget
  obtain ⟨written, w₄, hwrite, h⟩ := ok_of_bind h
  obtain ⟨hput, hw⟩ := ok_of_lift hwrite
  obtain ⟨rfl, rfl⟩ := ok_of_pure h
  refine ⟨script, data, hsite, hbytes, hput, hw, ?_⟩
  rintro rfl
  exact htarget

/-- The file that `compile` leaves behind, and that the length of its manifest
can be written. -/
theorem bundle_of_compile (h : compile p out w = (.ok o, u)) :
    ∃ script data, resolve p w.toSite = (.ok script, w.toSite) ∧
      Files.readBytes script w.toSite = (.ok data, w.toSite) ∧
      Files.readBytes o u.toSite =
        (.ok (Bundle.pack w.host.packer (manifestOf script w) data), u.toSite) ∧
      (utf8 (manifestOf script w).text).length ≤ Bundle.maxLength := by
  obtain ⟨script, data, hresolve, hread, hwrite, -⟩ := ok_of_compile h
  have hbytes := Files.readBytes_writeBytes hwrite
  have hlength := Bundle.length_manifest_le (Files.length_of_readBytes hread)
    w.host.clock w.host.version
  exact ⟨script, data, hresolve, hread, hbytes, hlength⟩

theorem bundle_of_script {script : String} {data : List UInt8}
    (hcompile : compile p out w = (.ok o, u))
    (hscript : resolve p w.toSite = (.ok script, w.toSite))
    (hdata : Files.readBytes script w.toSite = (.ok data, w.toSite)) :
    Files.readBytes o u.toSite =
        (.ok (Bundle.pack w.host.packer (manifestOf script w) data), u.toSite) ∧
      (utf8 (manifestOf script w).text).length ≤ Bundle.maxLength := by
  obtain ⟨found, bytes, hfound, hbytes, hbundle⟩ := bundle_of_compile hcompile
  obtain rfl : script = found := by
    rw [hscript] at hfound
    exact Except.ok.inj (Prod.mk.inj hfound).1
  obtain rfl : data = bytes := by
    rw [hdata] at hbytes
    exact Except.ok.inj (Prod.mk.inj hbytes).1
  exact hbundle

/-- **A script that was bundled is read back from its bundle.** The file that
was written is the mark, the length of the manifest, the manifest and the
payload, with nothing between or after them; it is cut into just these, and they
are read as what is known about the script and as its bytes. The time of the
bundling must be a number whose text is read back. -/
theorem compile_unpack {p o : String} {out : Option String} {w u : World}
    (h : compile p out w = (.ok o, u))
    (hclock : Json.readDocument ⟨.brief, true⟩ (Json.signs
      (Json.numberFormat.write w.host.clock)) = .ok (.float w.host.clock)) :
    ∃ (script : String) (data manifest payload bytes : List UInt8),
      resolve p w.toSite = (.ok script, w.toSite) ∧
      Files.readBytes script w.toSite = (.ok data, w.toSite) ∧
      Files.isFile u o = true ∧
      Files.readBytes o u.toSite = (.ok bytes, u.toSite) ∧
      bytes = utf8 "LUWEXE1" ++ Bundle.bigEndian 8 manifest.length ++
        manifest ++ payload ∧
      Bundle.sections bytes = .ok ⟨manifest, payload⟩ ∧
      Codec.Gzip.decompress payload = .ok data ∧
      Bundle.unpack bytes = .ok (.record
        [("name", .text (Path.splitExt (Path.baseName script)).1),
          ("entry", .text (Path.baseName script)),
          ("created", .float w.host.clock),
          ("py_version", .text (versionText w.host.version)),
          ("type", .text (if lower (Path.splitExt script).2 =
            ".py" then "python" else "luw"))], data) := by
  obtain ⟨script, data, hresolve, hread, hbytes, hlength⟩ := bundle_of_compile h
  have hfile := Files.isFile_of_readBytes hbytes
  refine ⟨script, data, _, w.host.packer.pack data, _, hresolve, hread, hfile,
    hbytes, rfl, Bundle.sections_pack _ hlength data,
    w.host.packer.decompress_pack data, ?_⟩
  have hkind : (Bundle.Interpreter.ofPath script).name =
      if lower (Path.splitExt script).2 = ".py" then "python" else "luw" := by
    unfold Bundle.Interpreter.ofPath
    by_cases hpy : lower (Path.splitExt script).2 = ".py"
    · rw [if_pos hpy, if_pos (beq_iff_eq.2 hpy)]
      rfl
    · rw [if_neg hpy, if_neg (mt beq_iff_eq.1 hpy)]
      rfl
  rw [Bundle.unpack_pack _ hlength hclock data, manifestOf,
    Bundle.fields_ofPath, hkind]

def quarterPast : Float := Float.ofBits 0x41D954FC40100000

theorem readDocument_quarterPast :
    Json.readDocument ⟨.brief, true⟩ (Json.signs
      (Json.numberFormat.write quarterPast)) = .ok (.float quarterPast) := by
  rfl

/-- A world whose only script has a name with a quotation mark and a letter of
two bytes. -/
def scriptWorld : World :=
  { (default : World) with
    disk := [([], ⟨.dir, 0o755, ⟨0, 0⟩⟩),
      (["ß\".Py"], ⟨.file (utf8 "print('ß')\n"), 0o644, ⟨0, 0⟩⟩)]
    host := { (default : Host) with clock := quarterPast, version := (3, 11) } }

theorem compile_scriptWorld :
    (compile "/ß\".Py" none scriptWorld).1 = .ok "/ß\".le" ∧
    (resolve "/ß\".Py" scriptWorld.toSite).1 = .ok "/ß\".Py" := by
  constructor
  · simp only [compile, resolve, Files.isFile, Files.node?, Files.readBytes,
      Files.find, Files.checkPath, Files.writeBytes, Files.target,
      String.contains_char_eq]
    rfl
  · simp only [resolve, Files.isFile, Files.node?, String.contains_char_eq]
    rfl

/-- The script is bundled for the installed interpreter, whatever the case of
its ending. -/
theorem compile_unpack_quoted :
    (compile "/ß\".Py" none scriptWorld).1 = .ok "/ß\".le" ∧
      ∃ bytes, (Files.readBytes "/ß\".le"
        (compile "/ß\".Py" none scriptWorld).2.toSite).1 = .ok bytes ∧
        Bundle.unpack bytes = .ok (.record
          [("name", .text "ß\""), ("entry", .text "ß\".Py"),
            ("created", .float quarterPast), ("py_version", .text "3.11"),
            ("type", .text "python")], utf8 "print('ß')\n") := by
  obtain ⟨hcompile, hscript⟩ := compile_scriptWorld
  have hdata : (Files.readBytes "/ß\".Py" scriptWorld.toSite).1 =
      .ok (utf8 "print('ß')\n") := by
    simp only [Files.readBytes, Files.find, Files.checkPath,
      String.contains_char_eq]
    rfl
  have hrun : compile "/ß\".Py" none scriptWorld =
      (.ok "/ß\".le", (compile "/ß\".Py" none scriptWorld).2) :=
    Prod.ext hcompile rfl
  obtain ⟨script, data, manifest, payload, bytes, hresolve, hread, -, hbytes, -,
      -, -, hunpack⟩ :=
    compile_unpack hrun readDocument_quarterPast
  rw [hresolve] at hscript
  obtain rfl := Except.ok.inj hscript
  rw [hread] at hdata
  obtain rfl := Except.ok.inj hdata
  refine ⟨hcompile, bytes, ?_, ?_⟩
  · rw [hbytes]
  · rw [hunpack]
    rfl

end App

end TaskShell
