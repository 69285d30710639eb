import TaskShell.Proofs.Bubbles
import TaskShell.Proofs.Completing

/-!
# Numbers of a colour

A colour is given by three numbers. Those that its argument lacks are taken from
the start of the message, and a message from which numbers were taken is said
without them. Whether three numbers were found in the end is asked later. So a
message that begins with too few numbers loses them, and nothing is coloured for
it.
-/

namespace TaskShell

open Act Text List

namespace Text

private theorem wordsOf_blanks {before after : List Char} (cs : List Char)
    (hbefore : ∀ c ∈ before, isBlank c = true)
    (hafter : ∀ c ∈ after, isBlank c = true) :
    wordsOf (before ++ cs ++ after) = wordsOf cs := by
  rw [wordsOf, wordsOf, append_assoc, Words.wordsFrom_append hbefore]
  cases after with
  | nil => rw [append_nil]
  | cons b after =>
    obtain ⟨hb, hrest⟩ := forall_mem_cons.1 hafter
    rw [Words.wordsFrom_append_blank hb, wordsFrom_blanks hrest, append_nil]

theorem words_trim (s : String) : words (trim s) = words s := by
  obtain ⟨before, after, hs, hbefore, hafter⟩ := trimBy_spec isBlank s.toList
  have hwords := wordsOf_blanks (trimBy isBlank s.toList) hbefore hafter
  rw [← hs] at hwords
  rw [words, words, trim, String.toList_ofList, hwords]

theorem prefix_joinLines (l : String) (ls : List String) :
    l.toList <+: (joinLines (l :: ls)).toList := by
  cases ls with
  | nil =>
    exact ⟨[], by rw [joinLines, String.intercalate_singleton, append_nil]⟩
  | cons next ls =>
    rw [joinLines_cons_cons, String.toList_append,
      String.toList_append, append_assoc]
    exact prefix_append _ _

end Text

namespace Shell

open Cow

/-! ## Numbers from a message -/

def isNumber (w : String) : Bool := (wordNumber? w).isSome

/-- `takeNumbers` takes numbers from the start of a message as long as they are
missing. -/
theorem takeNumbers_eq (n : Nat) (ws : List String) : takeNumbers n ws =
    (((ws.takeWhile isNumber).take n).filterMap wordNumber?,
      ws.drop ((ws.takeWhile isNumber).take n).length) := by
  induction ws generalizing n with
  | nil => cases n <;> rfl
  | cons w ws ih =>
    cases n with
    | zero =>
      rw [takeNumbers, take_zero]
      rfl
    | succ n =>
      rw [takeNumbers]
      cases hw : wordNumber? w with
      | none =>
        have hstop : isNumber w = false := by rw [isNumber, hw]; rfl
        rw [takeWhile_cons, hstop]
        rfl
      | some i =>
        have hgoes : isNumber w = true := by rw [isNumber, hw]; rfl
        rw [takeWhile_cons, hgoes, if_pos rfl, take_succ_cons,
          filterMap_cons_some hw, ih]
        rfl

/-- The numbers at the start of a message that complete those of an argument to
three. -/
def takenWords (rgb message : String) : List String :=
  ((words message).takeWhile isNumber).take
    (3 - (colourNumbers (.text rgb)).length)

/-- The numbers of a colour: those of the argument and the `takenWords` of the
message. -/
def numbersFor (rgb message : String) : List Int :=
  colourNumbers (.text rgb) ++ (takenWords rgb message).filterMap wordNumber?

theorem isEmpty_filterMap_takenWords (rgb message : String) :
    ((takenWords rgb message).filterMap wordNumber?).isEmpty =
      (takenWords rgb message).isEmpty := by
  cases htaken : takenWords rgb message with
  | nil => rfl
  | cons w ws =>
    have hmem : w ∈ takenWords rgb message := by
      rw [htaken]; exact mem_cons_self
    have hnumber : isNumber w = true :=
      all_eq_true.1 all_takeWhile w (mem_of_mem_take hmem)
    obtain ⟨i, hi⟩ := Option.isSome_iff_exists.1 hnumber
    rw [filterMap_cons_some hi]
    rfl

theorem drop_takenWords_eq_self_iff (rgb message : String) :
    (words message).drop (takenWords rgb message).length = words message ↔
    takenWords rgb message = [] := by
  constructor
  · intro hall
    have htaken : (takenWords rgb message).length ≤ (words message).length :=
      ((take_sublist _ _).trans (takeWhile_sublist _)).length_le
    have hlength := congrArg List.length hall
    rw [length_drop] at hlength
    exact length_eq_zero_iff.1 (by omega)
  · intro hnil
    rw [hnil]
    rfl

/-- What is said is the message without its `takenWords`. -/
theorem colourAndMessage_eq (rgb message : String) :
    (colourAndMessage (.text rgb) (trim message)).1 = numbersFor rgb message ∧
    words (colourAndMessage (.text rgb) (trim message)).2 =
      (words message).drop (takenWords rgb message).length := by
  have hnone : takenWords rgb message = [] →
    colourNumbers (.text rgb) = numbersFor rgb message ∧
      words (trim message) =
        (words message).drop (takenWords rgb message).length := by
    intro hnil
    rw [numbersFor, hnil, words_trim]
    exact ⟨(append_nil _).symm, rfl⟩
  have htake := takeNumbers_eq (3 - (colourNumbers (.text rgb)).length)
    (words (trim message))
  rw [words_trim, ← takenWords] at htake
  unfold colourAndMessage
  dsimp only
  by_cases hask : (decide ((colourNumbers (.text rgb)).length < 3) &&
    !(trim message).isEmpty) = true
  · rw [if_pos hask, words_trim, htake]
    dsimp only
    rw [isEmpty_filterMap_takenWords]
    by_cases hempty : (takenWords rgb message).isEmpty = true
    · rw [if_pos hempty]
      exact hnone (List.isEmpty_iff.1 hempty)
    · rw [if_neg hempty]
      dsimp only
      exact ⟨rfl,
        words_lineOf fun w hw => blankless_of_mem_words (mem_of_mem_drop hw)⟩
  · rw [if_neg hask]
    refine hnone ?_
    rw [Bool.and_eq_true, decide_eq_true_eq, not_and, Bool.not_eq_true,
      Bool.not_eq_false'] at hask
    by_cases hcount : (colourNumbers (.text rgb)).length < 3
    · have hblank : words message = [] := by
        rw [← words_trim, String.isEmpty_iff.1 (hask hcount)]
        rfl
      rw [takenWords, hblank]
      exact take_nil
    · rw [takenWords, Nat.sub_eq_zero_of_le (Nat.le_of_not_lt hcount)]
      exact take_zero

/-! ## The colour of an answer -/

theorem mem_named_of_asked {args : Args} {colour : String}
    (h : namedColour? args = some colour) :
    ∃ name, (name, colour) ∈ Paint.named := by
  unfold namedColour? at h
  split at h
  · next name hname =>
    obtain ⟨before, after, hnamed, -⟩ := lookup_eq_some_iff.1 h
    exact ⟨lower name, by rw [hnamed]; simp⟩
  · cases h

theorem colourPart_bounds (i : Int) :
    0 ≤ colourPart i ∧ colourPart i ≤ 255 := by
  unfold colourPart
  omega

theorem colourOf?_cases (numbers : List Int) :
    (∃ r g b more, numbers = r :: g :: b :: more ∧
      colourOf? numbers =
        some (Paint.rgb (colourPart r) (colourPart g) (colourPart b))) ∨
    numbers.length < 3 ∧ colourOf? numbers = none := by
  rcases numbers with _ | ⟨r, _ | ⟨g, _ | ⟨b, more⟩⟩⟩
  · exact .inr ⟨by decide, rfl⟩
  · exact .inr ⟨by simp, rfl⟩
  · exact .inr ⟨by simp, rfl⟩
  · exact .inl ⟨r, g, b, more, rfl, rfl⟩

/-- Whether an answer begins with a colour that is given by numbers. -/
def inNumberedColour (out : String) : Bool := startsWith out "\x1b[38;2;"

def areApart (a b : List Char) : Bool := !a.isPrefixOf b && !b.isPrefixOf a

theorem inNumberedColour_of_apart {start out : String}
    (h : start.toList <+: out.toList)
    (hapart : areApart "\x1b[38;2;".toList start.toList = true) :
    inNumberedColour out = false := by
  rw [areApart, Bool.and_eq_true, Bool.not_eq_true',
    Bool.not_eq_true'] at hapart
  rw [inNumberedColour, startsWith, ← Bool.not_eq_true, isPrefixOf_iff_prefix]
  intro hout
  rcases prefix_or_prefix_of_prefix hout h with hless | hless
  · rw [ isPrefixOf_iff_prefix.2 hless] at hapart
    cases hapart.1
  · rw [ isPrefixOf_iff_prefix.2 hless] at hapart
    cases hapart.2

private theorem prefix_paintLines (colour message art : String) :
    colour.toList <+:
      (paintLines colour (bubble message ++ "\n" ++ art)).toList := by
  rw [paintLines, lines_bubble_above, lines_bubble, rowsOf,
    cons_append, map_cons]
  refine List.IsPrefix.trans ?_ (prefix_joinLines _ _)
  rw [Paint.paint, String.append_assoc, String.toList_append]
  exact prefix_append _ _

/-- An answer begins with the colour of its numbers, and with no other colour
that is given by numbers (`inNumberedColour`). -/
theorem start_of_coloured (args : Args) (message art : String) :
    (∀ r g b more, (spoken args).1 = r :: g :: b :: more →
      startsWith (coloured args (bubble message ++ "\n" ++ art))
      (Paint.rgb (colourPart r) (colourPart g) (colourPart b)) = true) ∧
    (inNumberedColour (coloured args (bubble message ++ "\n" ++ art)) = true ↔
      3 ≤ (spoken args).1.length) := by
  have hpainted := fun colour => prefix_paintLines colour message art
  have hbubble : " ".toList <+: (bubble message ++ "\n" ++ art).toList := by
    rw [bubble, frame_eq, rowsOf, String.append_assoc, String.toList_append]
    refine List.IsPrefix.trans ?_
      ((prefix_joinLines _ _).trans (prefix_append _ _))
    rw [String.toList_append]
    exact prefix_append _ _
  generalize bubble message ++ "\n" ++ art = plain at hpainted hbubble
  rcases colourOf?_cases (spoken args).1
    with ⟨r, g, b, more, hnumbers, hcolour⟩ | ⟨hfew, hcolour⟩
  · have hstart :=
      hpainted (Paint.rgb (colourPart r) (colourPart g) (colourPart b))
    have hout : coloured args plain = paintLines
        (Paint.rgb (colourPart r) (colourPart g) (colourPart b)) plain := by
      rw [coloured, hcolour]
      rfl
    have hrgb : "\x1b[38;2;".toList <+:
        (Paint.rgb (colourPart r) (colourPart g) (colourPart b)).toList := by
      show _ <+: ("\x1b[" ++ ("38;2;" ++ toString (colourPart r) ++ ";" ++
        toString (colourPart g) ++ ";" ++
        toString (colourPart b)) ++ "m").toList
      simp only [String.toList_append, append_assoc]
      exact ⟨_, rfl⟩
    rw [hout, hnumbers]
    refine ⟨fun r' g' b' more' hsame => ?_,
      iff_of_true ( isPrefixOf_iff_prefix.2 (hrgb.trans hstart)) ?_⟩
    · cases hsame
      exact isPrefixOf_iff_prefix.2 hstart
    · simp
  · have hother : inNumberedColour (coloured args plain) = false := by
      rw [coloured, hcolour, Option.none_or]
      cases hasked : namedColour? args with
      | none => exact inNumberedColour_of_apart hbubble (by decide)
      | some colour =>
        have hnamed : Paint.named.all (fun p =>
            areApart "\x1b[38;2;".toList p.2.toList) = true := by decide
        obtain ⟨name, hmem⟩ := mem_named_of_asked hasked
        have hapart := all_eq_true.1 hnamed (name, colour) hmem
        exact inNumberedColour_of_apart (hpainted colour) hapart
    refine ⟨fun r g b more hnumbers => ?_,
      iff_of_false (by rw [hother]; decide) (Nat.not_le.2 hfew)⟩
    rw [hnumbers, length_cons, length_cons, length_cons] at hfew
    omega

/-! ## The command -/

def bubbleWords (message : String) : List String :=
  (inner (lines (bubble message))).flatMap fun row => words (contents row)

theorem bubbleWords_eq (message : String) :
    bubbleWords message = words message := by
  have hinside := (framed_rowsOf fun l (hl : l ∈ wrap message bubbleWidth) =>
    settable_of_mem_wrap hl).inside
  calc bubbleWords message =
        ((inner (lines (bubble message))).map contents).flatMap words :=
        (flatMap_map ..).symm
    _ = words message := by rw [lines_bubble, hinside, flatMap_words_wrap]

/-- What is `spoken` by a command with a text for both. -/
theorem spoken_eq {args : Args} {rgb message : String}
    (hrgb : args.get? "rgb" = some (.text rgb))
    (hmessage : args.get? "str" = some (.text message)) :
    spoken args = colourAndMessage (.text rgb) (trim message) := by
  have hdisplay : (args.getD "str" (.text "")).display = message := by
    rw [Args.getD, hmessage]
    rfl
  rw [spoken, hrgb, hdisplay]

/-- **When a bubble loses words without a colour.** Without a package, a command
with a text for the colour and one for the message answers with a bubble above a
drawing, perhaps coloured line by line. The bubble shows the words of the
message but for the numbers that were taken from its start. The answer begins
with the colour of the first three numbers, brought within their bounds, if and
only if there are three. That all words are shown unless there is such a colour
is true if and only if there are three numbers or none was taken. -/
theorem numbers_lost_iff {args : Args} {s : Site} {rgb message : String}
    {found : Option String}
    (hrgb : args.get? "rgb" = some (.text rgb))
    (hmessage : args.get? "str" = some (.text message))
    (hpackage : s.host.cowPackage = none)
    (hfound : templateFor args s = .ok found) :
    ∃ out said art, Command.run .cowsay args s = (.ok (.text out), s) ∧
      out = coloured args (bubble said ++ "\n" ++ art) ∧
      bubbleWords said = (words message).drop (takenWords rgb message).length ∧
      (inNumberedColour out = true ↔ 3 ≤ (numbersFor rgb message).length) ∧
      (∀ r g b more, numbersFor rgb message = r :: g :: b :: more →
        startsWith out
          (Paint.rgb (colourPart r) (colourPart g) (colourPart b)) = true ∧
        ∀ i ∈ [r, g, b], 0 ≤ colourPart i ∧ colourPart i ≤ 255) ∧
      ((inNumberedColour out = false → bubbleWords said = words message) ↔
        3 ≤ (numbersFor rgb message).length ∨ takenWords rgb message = []) := by
  obtain ⟨hnumbers, hwords⟩ := colourAndMessage_eq rgb message
  rw [← spoken_eq hrgb hmessage] at hnumbers hwords
  rw [← bubbleWords_eq] at hwords
  obtain ⟨art, hart⟩ :=
    drawing_eq (spoken args).2 (animalOf args) (found.filter (!·.isEmpty))
  have hrun := cowsay_of_template hpackage hfound
  obtain ⟨hrgb, hthree⟩ := start_of_coloured args (spoken args).2 art
  rw [hnumbers] at hrgb hthree
  rw [hart] at hrun
  refine ⟨_, (spoken args).2, art, hrun, rfl, hwords, hthree,
    fun r g b more hsome => ?_, ?_⟩
  · exact ⟨hrgb r g b more hsome, fun i _ => colourPart_bounds i⟩
  · by_cases hfull : 3 ≤ (numbersFor rgb message).length
    · refine iff_of_true (fun hnone => ?_) (.inl hfull)
      rw [hthree.2 hfull] at hnone
      cases hnone
    · rw [or_iff_right hfull, hwords, drop_takenWords_eq_self_iff]
      exact ⟨fun hall => hall (Bool.eq_false_iff.2 (mt hthree.1 hfull)),
        fun hnil _ => hnil⟩

/-- The arguments of a command with two numbers of a colour at the start of its
message, both out of bounds. -/
def clampedArgs : Args :=
  [("rgb", .text "10 x"), ("str", .text " 300 -5 hello 7")]

/-- Both numbers are taken and brought within their bounds, and the number
behind the other word stays. -/
theorem numbers_lost_clamped : clampedArgs.get? "rgb" = some (.text "10 x") ∧
    clampedArgs.get? "str" = some (.text " 300 -5 hello 7") ∧
    (default : Site).host.cowPackage = none ∧
    templateFor clampedArgs default = .ok none ∧
    ∃ out said art, Command.run .cowsay clampedArgs default =
      (.ok (.text out), default) ∧
      out = coloured clampedArgs (bubble said ++ "\n" ++ art) ∧
      bubbleWords said = ["hello", "7"] ∧
      startsWith out (Paint.rgb 10 255 0) = true := by
  have hrgb : clampedArgs.get? "rgb" = some (.text "10 x") := rfl
  have hmessage : clampedArgs.get? "str" = some (.text " 300 -5 hello 7") := rfl
  have htemplate : templateFor clampedArgs default = .ok none := rfl
  have htaken : takenWords "10 x" " 300 -5 hello 7" = ["300", "-5"] := by decide
  have hnumbers : numbersFor "10 x" " 300 -5 hello 7" =
      [10, 300, -5] := by decide
  have hwords :
      words " 300 -5 hello 7" = ["300", "-5", "hello", "7"] := by decide
  obtain ⟨out, said, art, hrun, hout, hshown, -, hcolour, -⟩ :=
    numbers_lost_iff hrgb hmessage rfl htemplate
  rw [htaken, hwords] at hshown
  exact ⟨hrgb, hmessage, rfl, htemplate, out, said, art, hrun, hout, hshown,
    (hcolour 10 300 (-5) [] hnumbers).1⟩

/-- A single number is taken from the message although there is no colour. -/
theorem numbers_lost_uncoloured :
    Command.run .cowsay [("rgb", .text "x"), ("str", .text "1 hello")] default =
        (.ok (.text (bubble "hello" ++ "\n" ++ animalArt "cow")), default) ∧
      bubble "hello" = " _______\n< hello >\n -------" ∧
      words "1 hello" = ["1", "hello"] := by
  refine ⟨rfl, ?_, ?_⟩
  · decide
  · decide

end Shell

end TaskShell
