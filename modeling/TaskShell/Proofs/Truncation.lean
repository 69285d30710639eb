import TaskShell.Proofs.CutDocuments
import TaskShell.Proofs.Draining
import TaskShell.Proofs.MoreInput
import TaskShell.Proofs.ScriptLines

/-!
# Bundles that are cut off

None of the parts of a bundle is checked for its length when it is read, so that
a bundle that is cut off is noticed by what is made of its parts: the mark is
not the mark, a manifest that is cut off is no document, and a payload that is
cut off is no compressed file. There is one place where nothing is noticed,
namely between the manifest and the payload. No payload at all is a compressed
file without members, that of an empty script.
-/

namespace TaskShell

open Text List

variable {bytes p : List UInt8}

namespace Bundle

/-! ## Reading -/

theorem unpack_of_manifest {parts : Sections}
    (hparts : sections bytes = .ok parts)
    (h : ∃ f, readManifest parts.manifest = .error f) :
    ∃ f, unpack bytes = .error f := by
  obtain ⟨f, hf⟩ := h
  refine ⟨f, ?_⟩
  unfold unpack
  rw [hparts]
  show (readManifest parts.manifest >>= _) = _
  rw [hf]
  rfl

theorem unpack_of_payload {parts : Sections}
    (hparts : sections bytes = .ok parts)
    (h : ∃ f, Codec.Gzip.decompress parts.payload = .error f) :
    ∃ f, unpack bytes = .error f := by
  obtain ⟨f, hf⟩ := h
  unfold unpack
  rw [hparts]
  show ∃ f, (readManifest parts.manifest >>= _) = _
  refine Json.error_of_bind fun manifest _ => ?_
  rw [hf]
  exact ⟨_, rfl⟩

theorem unpack_of_cut_mark (h : p <+: mark) (hcut : p ≠ mark) :
    ∃ f, unpack p = .error f := by
  have htake : p.take mark.length = p := take_of_length_le h.length_le
  have hsections : sections p = .error .noMark := by
    unfold sections
    rw [htake, if_pos (bne_iff_ne.2 hcut)]
  refine ⟨.noMark, ?_⟩
  unfold unpack
  rw [hsections]
  rfl

theorem unpack_of_cut_length {n : Nat} (h : p <+: bigEndian lengthSize n) :
    ∃ f, unpack (mark ++ p) = .error f := by
  have hlength : p.length ≤ lengthSize := by
    rw [← length_bigEndian lengthSize n]
    exact h.length_le
  have hdrop : p.drop lengthSize = [] := drop_eq_nil_of_le hlength
  by_cases hhuge : ofBigEndian (p.take lengthSize) > maxLength
  · have hsections : sections (mark ++ p) = .error .hugeLength := by
      unfold sections
      dsimp only
      rw [take_left, drop_left, bne_self_eq_false,
        if_neg Bool.false_ne_true, if_pos hhuge]
    refine ⟨.hugeLength, ?_⟩
    unfold unpack
    rw [hsections]
    rfl
  · have hsections : sections (mark ++ p) = .ok ⟨[], []⟩ := by
      unfold sections
      dsimp only
      rw [take_left, drop_left, bne_self_eq_false, if_neg Bool.false_ne_true,
        if_neg hhuge, hdrop, take_nil, drop_nil]
    exact unpack_of_manifest hsections ⟨_, rfl⟩

/-- **`readManifest` does not read a manifest that is cut off**: its bytes are
no text, or its text is no document. -/
theorem readManifest_of_cut {m : Manifest} (h : p <+: utf8 m.text)
    (hcut : p ≠ utf8 m.text) : ∃ f, readManifest p = .error f := by
  have hfields : ∀ field ∈ Json.Doc.ofFields m.fields,
      Json.Cuts ⟨.brief, true⟩
        { Json.Layout.line with ascii := false } field.2 := by
    intro field hfield
    simp only [Manifest.fields, Json.Doc.ofFields, Json.Doc.ofValue, mem_cons,
      not_mem_nil, or_false] at hfield
    rcases hfield with rfl | rfl | rfl | rfl | rfl
    · exact Json.cuts_text faithful_line _
    · exact Json.cuts_text faithful_line _
    · exact Json.cuts_float m.created
    · exact Json.cuts_text faithful_line _
    · exact Json.cuts_text faithful_line _
  unfold readManifest
  rcases decodeStrict_of_cut h with ⟨f, hf⟩ | ⟨ds, hds, hp, hread⟩
  · rw [hf]
    exact ⟨_, rfl⟩
  · have hshort : ds ≠ m.text.toList := fun heq => hcut (by rw [hp, heq, utf8])
    have hsigns : ds.map Json.Sign.scalar <+: Json.signs m.text := hds.map _
    have hmissing : ds.map Json.Sign.scalar ≠ Json.signs m.text := fun heq =>
      hshort ((List.map_inj_right fun _ _ => Json.Sign.scalar.inj).1 heq)
    rw [signs_text] at hsigns hmissing
    obtain ⟨f, hf⟩ := Json.readDocument_of_cut (s := ⟨.brief, true⟩)
      faithful_line (cons_ne_nil _ _) hfields hsigns hmissing
    rw [hread]
    dsimp only
    rw [hf]
    exact ⟨_, rfl⟩

/-! ## Where a bundle is cut off -/

section Cut

variable {m : Manifest} (hlength : (utf8 m.text).length ≤ maxLength)

def beforePayload (m : Manifest) : List UInt8 :=
  mark ++ bigEndian lengthSize (utf8 m.text).length ++ utf8 m.text

theorem length_beforePayload (m : Manifest) :
    (beforePayload m).length = 15 + (utf8 m.text).length := by
  rw [beforePayload, length_append, length_append, length_bigEndian]
  rfl

theorem pack_eq (packer : Codec.Gzip.Packer) (m : Manifest)
    (script : List UInt8) :
    pack packer m script = beforePayload m ++ packer.pack script := rfl

include hlength

theorem sections_of_payload (payload : List UInt8) :
    sections (beforePayload m ++ payload) = .ok ⟨utf8 m.text, payload⟩ := by
  rw [beforePayload, append_assoc _ (utf8 m.text), sections_append hlength,
    take_left, drop_left]

/-- **`unpack` does not read a bundle that is cut off**, unless it is cut off
just before its payload. -/
theorem unpack_of_cut {packer : Codec.Gzip.Packer} {script : List UInt8}
    (h : p <+: pack packer m script) (hcut : p ≠ pack packer m script)
    (hboundary : p ≠ beforePayload m) : ∃ f, unpack p = .error f := by
  rw [pack_eq] at h hcut
  rcases prefix_append_cases h with ⟨hbefore, -⟩ | ⟨payload, rfl, hpayload⟩
  · rw [beforePayload] at hbefore
    rcases prefix_append_cases hbefore
      with ⟨hhead, -⟩ | ⟨manifest, rfl, hmanifest⟩
    · rcases prefix_append_cases hhead with ⟨hmark, hne⟩ | ⟨length, rfl, hsize⟩
      · exact unpack_of_cut_mark hmark hne
      · exact unpack_of_cut_length hsize
    · have hne : manifest ≠ utf8 m.text :=
        fun heq => hboundary (by rw [beforePayload, heq])
      have hshort : manifest.length ≤ (utf8 m.text).length :=
        hmanifest.length_le
      have hparts : sections (mark ++ bigEndian lengthSize
          (utf8 m.text).length ++ manifest) = .ok ⟨manifest, []⟩ := by
        rw [sections_append hlength, take_of_length_le hshort,
          drop_eq_nil_of_le hshort]
      exact unpack_of_manifest hparts (readManifest_of_cut hmanifest hne)
  · have hne : payload ≠ [] := fun heq => hboundary (by rw [heq, append_nil])
    obtain ⟨rest, hrest⟩ := hpayload
    have hmissing : rest ≠ [] := by
      intro heq
      rw [heq, append_nil] at hrest
      exact hcut (by rw [hrest])
    have hmember := packer.undone script
    rw [← hrest] at hmember
    exact unpack_of_payload (sections_of_payload hlength payload)
      (Codec.Gzip.decompress_of_cut hmember hne hmissing)

/-- `unpack` reads a bundle without its payload as that of an empty script. -/
theorem unpack_of_boundary {s : Json.Settings}
    (h : Json.readDocument s (Json.signs (Json.numberFormat.write m.created)) =
      .ok (.float m.created)) :
    unpack (beforePayload m) = .ok (.record m.fields, []) := by
  have hparts := sections_of_payload hlength []
  rw [append_nil] at hparts
  unfold unpack
  simp only [hparts, bind, Except.bind, readManifest_text h]
  rfl

end Cut

end Bundle

namespace App

open Act

/-! ## Running -/

theorem runBundle_of_unpack_error {p : String} {w : World}
    {f : Bundle.BundleFault}
    (hread : Files.readBytes p w.toSite = (.ok bytes, w.toSite))
    (h : Bundle.unpack bytes = .error f) :
    runBundle p w = (.error (f.toFault p), w) := by
  have hfile := Files.isFile_of_readBytes hread
  unfold runBundle
  rw [get_bind_apply, hfile, Bool.not_true, if_neg Bool.false_ne_true]
  beta_reduce
  rw [bind_of_ok (lift_of_ok hread), h]
  rfl

private theorem waitForAll_ends (w : World) :
    ∃ u, Shell.waitForAll w = (.ok (), u) := by
  obtain ⟨u, hrun, -, -⟩ := Shell.runWaiting_results w
  obtain ⟨out, hlog⟩ := prints_logDebug "Alle Aufgaben erledigt" u
  have hwait : Shell.waitForAll w = logDebug "Alle Aufgaben erledigt" u :=
    bind_of_ok hrun
  exact ⟨_, hwait.trans hlog⟩

theorem runBundle_of_empty {p : String} {w : World}
    {fields : List (String × Value)}
    (hread : Files.readBytes p w.toSite = (.ok bytes, w.toSite))
    (h : Bundle.unpack bytes = .ok (.record fields, []))
    (htype : fields.lookup "type" =
      some (.text Bundle.Interpreter.shell.name)) :
    runBundle p w = (do Shell.waitForAll; return true) w ∧
    (runBundle p w).1 = .ok true := by
  have hlines : runBundled [] = Shell.waitForAll := rfl
  have hrun : runBundle p w = (do Shell.waitForAll; return true) w := by
    rw [runBundle_of_unpack hread h htype, hlines]
  obtain ⟨u, hwait⟩ := waitForAll_ends w
  refine ⟨hrun, ?_⟩
  rw [hrun, bind_of_ok hwait]
  rfl

/-- **Running a bundle that is cut off.** The file that bundling a script leaves
behind is cut off after some of its bytes and stored anywhere. Running what is
left fails and changes nothing, unless the cut is just before the payload.
There, if the script is one for this shell, no line is run and the run ends as
if all were well; the time of the bundling must be a number whose text is read
back. -/
theorem truncated_bundle_outcome {p o : String} {out : Option String}
    {w u : World} (h : compile p out w = (.ok o, u)) :
    ∃ (script : String) (manifest payload bytes : List UInt8),
      resolve p w.toSite = (.ok script, w.toSite) ∧
      Files.readBytes o u.toSite = (.ok bytes, u.toSite) ∧
      manifest = utf8 (manifestOf script w).text ∧
      bytes = utf8 "LUWEXE1" ++ Bundle.bigEndian 8 manifest.length ++
        manifest ++ payload ∧ payload ≠ [] ∧
      ∀ (v : World) (q : String) (n : Nat), n < bytes.length →
        Files.readBytes q v.toSite = (.ok (bytes.take n), v.toSite) →
        (n ≠ 15 + manifest.length → ∃ f, runBundle q v = (.error f, v)) ∧
        (n = 15 + manifest.length → lower (Path.splitExt script).2 ≠ ".py" →
          Json.readDocument ⟨.brief, true⟩
            (Json.signs (Json.numberFormat.write w.host.clock)) =
            .ok (.float w.host.clock) →
          runBundle q v = (do Shell.waitForAll; return true) v ∧
          (runBundle q v).1 = .ok true) := by
  obtain ⟨script, data, hresolve, -, hbytes, hlength⟩ := bundle_of_compile h
  have hpayload : w.host.packer.pack data ≠ [] := w.host.packer.pack_ne_nil data
  have hparts : Bundle.pack w.host.packer (manifestOf script w) data =
    utf8 "LUWEXE1" ++
      Bundle.bigEndian 8 (utf8 (manifestOf script w).text).length ++
        utf8 (manifestOf script w).text ++ w.host.packer.pack data := rfl
  refine ⟨script, _, w.host.packer.pack data, _, hresolve, hbytes, rfl,
    hparts, hpayload, ?_⟩
  intro v q n hn hread
  generalize hm : manifestOf script w = m at hlength hn hread ⊢
  have hstart : (Bundle.pack w.host.packer m data).take n <+:
      Bundle.pack w.host.packer m data := take_prefix n _
  have htake : ((Bundle.pack w.host.packer m data).take n).length = n :=
    length_take_of_le (Nat.le_of_lt hn)
  have hbefore : (Bundle.beforePayload m).length = 15 + (utf8 m.text).length :=
    Bundle.length_beforePayload m
  constructor
  · intro hboundary
    have hcut : (Bundle.pack w.host.packer m data).take n ≠
        Bundle.pack w.host.packer m data := by
      intro heq
      rw [heq] at htake
      omega
    have hother : (Bundle.pack w.host.packer m data).take n ≠
        Bundle.beforePayload m := by
      intro heq
      rw [heq] at htake
      omega
    obtain ⟨f, hf⟩ := Bundle.unpack_of_cut hlength hstart hcut hother
    exact ⟨_, runBundle_of_unpack_error hread hf⟩
  · intro hboundary hkind hclock
    have hpart : (Bundle.pack w.host.packer m data).take n =
        Bundle.beforePayload m := by
      rw [Bundle.pack_eq, hboundary, ← hbefore, take_left]
    rw [hpart] at hread
    subst hm
    exact runBundle_of_empty hread (Bundle.unpack_of_boundary hlength hclock)
      (Bundle.lookup_type hkind _ _)

/-- A world with one file, `/t.le`. -/
def bundleWorld (bytes : List UInt8) : World :=
  { (default : World) with
    disk :=
      [([], ⟨.dir, 0o755, ⟨0, 0⟩⟩), (["t.le"], ⟨.file bytes, 0o644, ⟨0, 0⟩⟩)] }

theorem readBytes_bundleWorld (bytes : List UInt8) :
    Files.readBytes "/t.le" (bundleWorld bytes).toSite =
      (.ok bytes, (bundleWorld bytes).toSite) := by
  simp only [Files.readBytes, Files.find, Files.checkPath,
    String.contains_char_eq]
  rfl

/-- The manifest of `/s.latin`, a quarter of a second after a full second. -/
def latinManifest : Bundle.Manifest :=
  Bundle.Manifest.ofPath "/s.latin" quarterPast (versionText (3, 11))

theorem length_latinManifest :
    (utf8 latinManifest.text).length = 96 := by decide +kernel

/-- The bundle of a script of one line, cut off in the mark, in the manifest and
before the payload. -/
theorem truncated_bundle_outcome_echo :
    ∃ bytes, Files.readBytes "/s.le"
      (compile "/s.latin" none (latinWorld "echo a\n")).2.toSite =
        (.ok bytes,
          (compile "/s.latin" none (latinWorld "echo a\n")).2.toSite) ∧
      (∃ f, runBundle "/t.le" (bundleWorld (bytes.take 3)) =
        (.error f, bundleWorld (bytes.take 3))) ∧
      (∃ f, runBundle "/t.le" (bundleWorld (bytes.take 60)) =
        (.error f, bundleWorld (bytes.take 60))) ∧
      runBundle "/t.le" (bundleWorld (bytes.take 111)) =
        (do Shell.waitForAll; return true) (bundleWorld (bytes.take 111)) := by
  obtain ⟨script, manifest, payload, bytes, hscript, hbytes, hmanifest, hparts,
      hpayload, hcut⟩ :=
    truncated_bundle_outcome (compile_latinWorld "echo a\n")
  obtain rfl : "/s.latin" = script := by
    rw [resolve_latinWorld] at hscript
    exact Except.ok.inj (Prod.mk.inj hscript).1
  have hmanifestLength : manifest.length = 96 := by
    rw [hmanifest]
    exact length_latinManifest
  have hlength : 111 < bytes.length := by
    have hpositive := length_pos_iff.2 hpayload
    rw [hparts, length_append, length_append, length_append,
      Bundle.length_bigEndian]
    have hmark : (utf8 "LUWEXE1").length = 7 := rfl
    omega
  have hstored := fun n => readBytes_bundleWorld (bytes.take n)
  refine ⟨bytes, hbytes, ?_, ?_, ?_⟩
  · exact (hcut _ "/t.le" 3 (by omega) (hstored 3)).1 (by omega)
  · exact (hcut _ "/t.le" 60 (by omega) (hstored 60)).1 (by omega)
  · exact ((hcut _ "/t.le" 111 hlength (hstored 111)).2 (by omega) (by decide)
      readDocument_quarterPast).1

/-- Without its payload, a bundle with a line in it runs well. -/
theorem runBundle_without_payload :
    Bundle.unpack (Bundle.pack .stored latinManifest (utf8 "echo a\n")) =
      .ok (.record latinManifest.fields, utf8 "echo a\n") ∧
      (runBundle "/t.le" (bundleWorld ((Bundle.pack .stored latinManifest
        (utf8 "echo a\n")).take 111))).1 = .ok true := by
  have hlength : (utf8 latinManifest.text).length ≤ Bundle.maxLength := by
    rw [length_latinManifest]
    decide
  have hpart : (Bundle.pack .stored latinManifest (utf8 "echo a\n")).take 111 =
      Bundle.beforePayload latinManifest := by
    have hbefore := Bundle.length_beforePayload latinManifest
    rw [length_latinManifest] at hbefore
    rw [Bundle.pack_eq, List.take_left' hbefore]
  have hclock : Json.readDocument ⟨.brief, true⟩
      (Json.signs (Json.numberFormat.write latinManifest.created)) =
      .ok (.float latinManifest.created) := by
    rw [latinManifest, Bundle.Manifest.ofPath]
    exact readDocument_quarterPast
  have htype := Bundle.lookup_type (p := "/s.latin") (by decide) quarterPast
    (versionText (3, 11))
  refine ⟨Bundle.unpack_pack .stored hlength hclock (utf8 "echo a\n"), ?_⟩
  rw [hpart]
  exact (runBundle_of_empty (readBytes_bundleWorld _)
    (Bundle.unpack_of_boundary hlength hclock) htype).2

end App

end TaskShell
