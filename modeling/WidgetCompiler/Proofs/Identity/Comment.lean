import WidgetCompiler.Proofs.Identity.Fields
import WidgetCompiler.Proofs.Text.Extract
import WidgetCompiler.Proofs.Text.Pieces
import WidgetCompiler.Proofs.Text.Run
import WidgetCompiler.Proofs.Text.Seam

/-!
# What the comment in the markup says

A line of the comment gives a field a value if the key of the field stands before its first colon and
something stands behind it (`Gives`).  Of the lines that give a field a value the last one counts, and
a field to which no line gives a value has none (`IdentityHints.ReadFrom`); both follow from what one
more line does (`get_hintsOfLines_concat`).  Since a record is told by its fields, lines that are
written from a record give the record back (`hintsOfLines_lines`).

The comment is found behind any text that announces none (`Unannounced`), and ends at its first end
mark.  So its lines are read exactly, whatever stands around it (`hintsInMarkup?_comment`).
-/

namespace WidgetCompiler

open Text Pattern

variable {line front value : Text} {ls : List Text} {field : IdentityField}

/-! ## Lines -/

/-- The line gives the field a value: before its first colon stands the key of the field in letters of
any case, and behind it the value, with blanks around both. -/
def Gives (line : Text) (field : IdentityField) (value : Text) : Prop :=
  ∃ key rest, line = key ++ ':' :: rest ∧ ':' ∉ key ∧ lowerAscii (trim key) = field.key
    ∧ trim rest = value ∧ value ≠ []

theorem keyValue?_of_not_mem {key : Text} (hkey : ':' ∉ key) (rest : Text) :
    keyValue? (key ++ ':' :: rest)
      = if allBlank rest then none else some (lowerAscii (trim key), trim rest) := by
  have hcut : cutAt? (· == ':') (key ++ ':' :: rest) = some (key, rest) :=
    cutAt?_run (fun c hc => beq_eq_false_iff_ne.2 fun e => hkey (e ▸ hc)) rfl
  rw [keyValue?, hcut]

/-- Reading a line says what it gives. -/
theorem gives_iff : Gives line field value ↔ keyValue? line = some (field.key, value) := by
  constructor
  · rintro ⟨key, rest, rfl, hcolon, hkey, hvalue, hne⟩
    have hblank : ¬ allBlank rest = true := fun h => hne (hvalue ▸ trim_of_allBlank h)
    rw [keyValue?_of_not_mem hcolon, if_neg hblank, hkey, hvalue]
  · intro h
    rw [keyValue?] at h
    split at h
    · next key rest hcut =>
      split at h
      · simp at h
      · next hblank =>
        obtain ⟨hkey, hvalue⟩ := Prod.mk.inj (Option.some.inj h)
        obtain ⟨c, hc, rfl, hfirst⟩ := cutAt?_eq_some hcut
        obtain rfl : c = ':' := eq_of_beq hc
        refine ⟨key, rest, rfl, fun hmem => by simpa using hfirst ':' hmem, hkey, hvalue, fun hnil => ?_⟩
        exact hblank (allBlank_of_trim_eq_nil (hvalue.trans hnil))
    · simp at h

/-- A carriage return at the end of a line changes nothing. -/
theorem keyValue?_dropReturn (line : Text) : keyValue? (dropReturn line) = keyValue? line := by
  rw [dropReturn]
  split
  · next hlast =>
    obtain ⟨front, rfl⟩ := List.getLast?_eq_some_iff.1 hlast
    have hreturn : ∀ c ∈ (['\r'] : Text), (c == ':') = false := by decide
    rw [List.dropLast_concat, keyValue?, keyValue?, cutAt?_append hreturn]
    cases cutAt? (· == ':') front with
    | none => rfl
    | some cut =>
      have hblank : allBlank (cut.2 ++ ['\r']) = allBlank cut.2 := by
        rw [allBlank_append]
        exact Bool.and_true _
      have htrim : trim (cut.2 ++ ['\r']) = trim cut.2 := trim_append_right (by decide)
      simp only [Option.map_some, hblank, htrim]
  · rfl

/-! ## The last line that counts -/

/-- The last of the lines that give the field a value gives it this one. -/
def LastGives (ls : List Text) (field : IdentityField) (value : Text) : Prop :=
  ∃ before line after, ls = before ++ line :: after ∧ Gives line field value
    ∧ ∀ l ∈ after, ∀ w, ¬ Gives l field w

/-- Either one of the lines is the last that gives the field a value, or none gives it one. -/
theorem exists_lastGives (ls : List Text) (field : IdentityField) :
    (∃ value, LastGives ls field value) ∨ ∀ l ∈ ls, ∀ w, ¬ Gives l field w := by
  induction ls using List.reverseRecOn with
  | nil => exact .inr (by simp)
  | append_singleton ls line ih =>
    by_cases hline : ∃ value, Gives line field value
    · obtain ⟨value, hvalue⟩ := hline
      exact .inl ⟨value, ls, line, [], rfl, hvalue, by simp⟩
    · have hline : ∀ w, ¬ Gives line field w := fun w h => hline ⟨w, h⟩
      rcases ih with ⟨value, before, l, after, rfl, hvalue, hafter⟩ | hnone
      · refine .inl ⟨value, before, l, after ++ [line], by simp, hvalue, fun l' hl' => ?_⟩
        rcases List.mem_append.1 hl' with hl' | hl'
        · exact hafter l' hl'
        · rwa [List.mem_singleton.1 hl']
      · refine .inr fun l hl => ?_
        rcases List.mem_append.1 hl with hl | hl
        · exact hnone l hl
        · rwa [List.mem_singleton.1 hl]

/-- One more line gives a field its value, or leaves the field as it is. -/
theorem get_hintsOfLines_concat (ls : List Text) (line : Text) (field : IdentityField) :
    (∀ value, Gives line field value → (hintsOfLines (ls ++ [line])).get field = some value)
      ∧ ((∀ value, ¬ Gives line field value) →
        (hintsOfLines (ls ++ [line])).get field = (hintsOfLines ls).get field) := by
  simp only [gives_iff, hintsOfLines, List.filterMap_append, List.foldl_append]
  cases hread : keyValue? line with
  | none => simp [hread]
  | some kv =>
    obtain ⟨key, value⟩ := kv
    simp only [List.filterMap_cons_some hread, List.filterMap_nil, List.foldl_cons, List.foldl_nil,
      IdentityHints.get_set]
    refine ⟨fun v hv => ?_, fun hother => if_neg fun hkey => hother value (by rw [hkey])⟩
    obtain ⟨rfl, rfl⟩ := Prod.mk.inj (Option.some.inj hv)
    exact if_pos rfl

/-- Lines that give the field nothing leave it as it is. -/
theorem get_hintsOfLines_append {after : List Text} (ls : List Text)
    (h : ∀ l ∈ after, ∀ w, ¬ Gives l field w) :
    (hintsOfLines (ls ++ after)).get field = (hintsOfLines ls).get field := by
  induction after using List.reverseRecOn with
  | nil => rw [List.append_nil]
  | append_singleton after line ih =>
    rw [← List.append_assoc, (get_hintsOfLines_concat _ line field).2 (h line (by simp)),
      ih fun l hl => h l (List.mem_append_left _ hl)]

/-- The record holds what the lines give: of each field the value that the last line gives it, and
nothing of a field that no line gives a value. -/
structure IdentityHints.ReadFrom (h : IdentityHints) (ls : List Text) : Prop where
  last : ∀ field value, h.get field = some value ↔ LastGives ls field value
  nothing : ∀ field, h.get field = none ↔ ∀ line ∈ ls, ∀ value, ¬ Gives line field value

theorem readFrom_hintsOfLines (ls : List Text) : (hintsOfLines ls).ReadFrom ls := by
  have hlast {field value} (h : LastGives ls field value) : (hintsOfLines ls).get field = some value := by
    obtain ⟨before, line, after, rfl, hline, hafter⟩ := h
    rw [List.append_cons before line after, get_hintsOfLines_append _ hafter,
      (get_hintsOfLines_concat before line field).1 value hline]
  have hnothing {field} (h : ∀ l ∈ ls, ∀ w, ¬ Gives l field w) : (hintsOfLines ls).get field = none := by
    calc (hintsOfLines ls).get field = (hintsOfLines []).get field := get_hintsOfLines_append [] h
      _ = none := IdentityHints.get_empty field
  refine ⟨fun field value => ⟨fun hget => ?_, hlast⟩, fun field => ⟨fun hget => ?_, hnothing⟩⟩
  · rcases exists_lastGives ls field with ⟨w, hw⟩ | hnone
    · obtain rfl : w = value := Option.some.inj ((hlast hw).symm.trans hget)
      exact hw
    · exact nomatch (hnothing hnone).symm.trans hget
  · rcases exists_lastGives ls field with ⟨w, hw⟩ | hnone
    · exact nomatch (hlast hw).symm.trans hget
    · exact hnone

/-- Lines with a repeated key, an empty value, a key that is no field's, and a colon in a value. -/
def mixedLines : List Text :=
  ["NAME : first", " title: Plans: a -- b ", "Name:second\r", "name:\t", "names: third", "icon"]

example : hintsOfLines mixedLines = { name := some "second", title := some "Plans: a -- b" } := by decide

/-! ## Lines that are written from a record -/

namespace IdentityHints

/-- The lines that hold the record, one for each field of which a value is known. -/
def lines (h : IdentityHints) : List Text :=
  IdentityField.all.filterMap fun field => (h.get field).map (field.key ++ ": " ++ ·)

/-- Each value of the record can stand on a line of the comment, and has no blanks around it. -/
def Printable (h : IdentityHints) : Prop :=
  ∀ field, ∀ value ∈ h.get field, trim value = value ∧ value ≠ [] ∧ '\n' ∉ value ∧ Lacks "-->" value

theorem mem_lines {h : IdentityHints} :
    line ∈ h.lines ↔ ∃ field, ∃ value ∈ h.get field, line = field.key ++ ": " ++ value := by
  simp only [lines, List.mem_filterMap, IdentityField.mem_all, true_and, Option.map_eq_some_iff,
    Option.mem_def, eq_comm (a := line)]

end IdentityHints

theorem gives_entry {other : IdentityField} {w : Text} (htrim : trim value = value) (hne : value ≠ []) :
    Gives (other.key ++ ": " ++ value) field w ↔ other = field ∧ value = w := by
  have hcolon : ':' ∉ other.key := by cases other <;> decide
  have hkey : lowerAscii (trim other.key) = other.key := by cases other <;> decide
  have hvalue : trim (' ' :: value) = value := (trim_append_left (s := [' ']) rfl).trans htrim
  have hblank : ¬ allBlank (' ' :: value) = true := fun h => hne (hvalue.symm.trans (trim_of_allBlank h))
  have hread : keyValue? (other.key ++ ": " ++ value) = some (other.key, value) := by
    have hwritten : other.key ++ ": " ++ value = other.key ++ ':' :: ' ' :: value := by
      rw [List.append_assoc]
      rfl
    rw [hwritten, keyValue?_of_not_mem hcolon, if_neg hblank, hkey, hvalue]
  rw [gives_iff, hread, Option.some.injEq, Prod.mk.injEq, IdentityField.key_injective.eq_iff]

/-- The lines of a record give the record back. -/
theorem hintsOfLines_lines {h : IdentityHints} (hprint : h.Printable) : hintsOfLines h.lines = h := by
  have hread := readFrom_hintsOfLines h.lines
  have hgiven {line field w} (hline : line ∈ h.lines) (hgives : Gives line field w) :
      h.get field = some w := by
    obtain ⟨other, value, hvalue, rfl⟩ := IdentityHints.mem_lines.1 hline
    obtain ⟨htrim, hne, -, -⟩ := hprint other value hvalue
    obtain ⟨rfl, rfl⟩ := (gives_entry htrim hne).1 hgives
    exact hvalue
  refine IdentityHints.ext_get fun field => ?_
  cases hget : h.get field with
  | none =>
    refine (hread.nothing field).2 fun line hline w hgives => ?_
    exact nomatch (hgiven hline hgives).symm.trans hget
  | some value =>
    obtain ⟨htrim, hne, -, -⟩ := hprint field value hget
    have hline : field.key ++ ": " ++ value ∈ h.lines := IdentityHints.mem_lines.2 ⟨field, value, hget, rfl⟩
    have hgives : Gives (field.key ++ ": " ++ value) field value := (gives_entry htrim hne).2 ⟨rfl, rfl⟩
    cases hlast : (hintsOfLines h.lines).get field with
    | none => exact absurd hgives ((hread.nothing field).1 hlast _ hline value)
    | some w =>
      obtain ⟨before, l, after, hls, hl, -⟩ := (hread.last field w).1 hlast
      have hmem : l ∈ h.lines := hls ▸ List.mem_append_right before List.mem_cons_self
      exact (hgiven hmem hl).symm.trans hget

/-! ## The comment -/

/-- The comment that holds the lines. -/
def commentText (ls : List Text) : Text :=
  "<!-- WIDGET_META" ++ '\n' :: join ['\n'] ls ++ '\n' :: "-->"

/-- The beginning of such a comment, with blanks before its name. -/
def announcement (gap : Text) : Text := "<!--" ++ gap ++ "WIDGET_META"

/-- In the text, no mark that begins a comment is followed by blanks and the comment's name. -/
def Unannounced (front : Text) : Prop := ∀ gap, allBlank gap = true → Lacks (announcement gap) front

/-- Whether the text begins as such a comment does. -/
def announces (s : Text) : Bool :=
  (after? "<!--" s).any fun s => (after? "WIDGET_META" (afterBlanks s)).isSome

theorem afterBlanks_append_name {gap : Text} (hgap : allBlank gap = true) (rest : Text) :
    afterBlanks (gap ++ ("WIDGET_META" ++ rest)) = "WIDGET_META" ++ rest := by
  refine dropWhile_run (fun c hc => isBlank_of_mem hgap hc) fun c hc => ?_
  obtain rfl : 'W' = c := Option.some.inj hc
  decide

theorem announces_iff {s : Text} :
    announces s = true ↔ ∃ gap, allBlank gap = true ∧ announcement gap <+: s := by
  constructor
  · intro h
    obtain ⟨t, ht, hname⟩ := (Option.any_eq_true ..).1 h
    obtain ⟨rest, hrest⟩ := Option.isSome_iff_exists.1 hname
    refine ⟨t.takeWhile isBlank, allBlank_takeWhile t, rest, ?_⟩
    rw [after?_eq_some.1 ht, announcement, List.append_assoc, List.append_assoc, ← after?_eq_some.1 hrest]
    exact congrArg _ (trimStart_append t)
  · rintro ⟨gap, hgap, rest, rfl⟩
    rw [announces, announcement, List.append_assoc, List.append_assoc, after?_append, Option.any_some,
      afterBlanks_append_name hgap, after?_append]
    rfl

/-- To tell whether a text announces a comment, all its places are looked at. -/
theorem unannounced_iff : Unannounced front ↔ ∀ t ∈ front.tails, announces t = false := by
  constructor
  · intro h t ht
    refine Bool.eq_false_iff.2 fun hann => ?_
    obtain ⟨gap, hgap, hbegins⟩ := announces_iff.1 hann
    exact h gap hgap (hbegins.isInfix.trans ((List.mem_tails t front).1 ht).isInfix)
  · rintro h gap hgap ⟨before, after, rfl⟩
    have htail : announcement gap ++ after ∈ (before ++ announcement gap ++ after).tails :=
      (List.mem_tails _ _).2 ⟨before, (List.append_assoc ..).symm⟩
    exact Bool.false_ne_true
      ((h _ htail).symm.trans (announces_iff.2 ⟨gap, hgap, List.prefix_append _ _⟩))

instance (front : Text) : Decidable (Unannounced front) := decidable_of_iff _ unannounced_iff.symm

theorem identityComment_forward : Forward identityComment := fun _ _ _ => rfl

theorem identityComment_announcement {gap : Text} (hgap : allBlank gap = true) (prev : Option Char)
    (s : Text) :
    identityComment prev (announcement gap ++ s) = if wordEnds s then cut? "-->" s else none := by
  rw [announcement, List.append_assoc, List.append_assoc, identityComment, after?_append]
  simp only [afterBlanks_append_name hgap, after?_append]

theorem identityComment_of_not_announces {s : Text} (h : announces s = false) (prev : Option Char) :
    identityComment prev s = none := by
  rw [announces] at h
  rw [identityComment]
  split
  · next t ht =>
    rw [ht, Option.any_some, Option.isSome_eq_false_iff, Option.isNone_iff_eq_none] at h
    rw [h]
  · rfl

/-- A text that announces no comment has none, also where one follows. -/
theorem passesBefore_identityComment (hfront : Unannounced front) {s : Text}
    (hs : s.head? = some '<') : PassesBefore identityComment front s := by
  rintro a b rfl hb
  refine identityComment_of_not_announces (Bool.eq_false_iff.2 fun hann => ?_) none
  obtain ⟨gap, hgap, rest, hrest⟩ := announces_iff.1 hann
  have hopen : '<' ∉ gap := not_mem_of_allBlank_of_isBlank hgap (by decide)
  have htail : (announcement gap).tail = "!--" ++ gap ++ "WIDGET_META" := rfl
  have hapart : Apart (announcement gap) b s := by
    refine apart_of_head fun c hc => ?_
    obtain rfl : '<' = c := Option.some.inj (hs.symm.trans hc)
    rw [htail, List.mem_append, List.mem_append]
    rintro ((hmem | hmem) | hmem)
    · exact absurd hmem (by decide)
    · exact hopen hmem
    · exact absurd hmem (by decide)
  rcases places_append (a := []) hapart hrest.symm with ⟨b', hin, -⟩ | ⟨a', hnil, -⟩
  · exact hfront gap hgap ⟨a, b', by rw [List.append_assoc, hin, List.nil_append]⟩
  · exact hb (List.append_eq_nil_iff.1 hnil.symm).1

/-- The comment is read up to its end mark. -/
theorem identityComment_commentText (hend : Lacks "-->" (join ['\n'] ls)) (prev : Option Char) (rest : Text) :
    identityComment prev (commentText ls ++ rest)
      = some ('\n' :: join ['\n'] ls ++ ['\n'], rest) := by
  have hbody : Lacks "-->" ('\n' :: join ['\n'] ls ++ ['\n']) := by
    have hfirst : Lacks "-->" ('\n' :: join ['\n'] ls) :=
      Lacks.append (s := ['\n']) (by decide) hend (apart_of_last (by decide))
    exact hfirst.append (by decide) (apart_of_head (by decide))
  have hlast : ('\n' :: join ['\n'] ls ++ ['\n']).getLast? = some '\n' := List.getLast?_concat
  have happart : Apart "-->" ('\n' :: join ['\n'] ls ++ ['\n']) "-->" := by
    refine apart_of_last fun c hc => ?_
    obtain rfl : '\n' = c := Option.some.inj (hlast.symm.trans hc)
    decide
  have hwritten : commentText ls ++ rest
      = announcement [' '] ++ (('\n' :: join ['\n'] ls ++ ['\n']) ++ ("-->" ++ rest)) := by
    have hgroup (a b c : Text) :
        a ++ '\n' :: b ++ '\n' :: c ++ rest = a ++ (('\n' :: b ++ ['\n']) ++ (c ++ rest)) := by simp
    exact hgroup (announcement [' ']) (join ['\n'] ls) "-->"
  rw [hwritten, identityComment_announcement rfl, cut?_of_lacks hbody happart]
  exact if_pos rfl

/-- The lines of the comment are the given ones, apart from such as say nothing. -/
theorem hintsOfLines_body (h : ∀ l ∈ ls, '\n' ∉ l) :
    hintsOfLines (lines ('\n' :: join ['\n'] ls ++ ['\n'])) = hintsOfLines ls := by
  by_cases hne : ls = []
  · subst hne
    rfl
  · have hbody : '\n' :: join ['\n'] ls ++ ['\n'] = joinLines ([] :: ls) := by
      rw [joinLines, joinLines_eq_join hne]
      rfl
    have hlines : lines (joinLines ([] :: ls)) = [] :: ls.map dropReturn :=
      lines_joinLines (List.forall_mem_cons.2 ⟨List.not_mem_nil, h⟩)
    have hreturns : (ls.map dropReturn).filterMap keyValue? = ls.filterMap keyValue? := by
      rw [List.filterMap_map]
      exact List.filterMap_congr fun line _ => keyValue?_dropReturn line
    have hnil : keyValue? [] = none := rfl
    rw [hbody, hlines, hintsOfLines, List.filterMap_cons_none hnil, hreturns, hintsOfLines]

theorem hintsInMarkup?_commentText (hfront : Unannounced front) (hls : ∀ l ∈ ls, '\n' ∉ l)
    (hend : Lacks "-->" (join ['\n'] ls)) (rest : Text) :
    hintsInMarkup? (front ++ commentText ls ++ rest) = some (hintsOfLines ls) := by
  have hhead : (commentText ls ++ rest).head? = some '<' := rfl
  have hne : commentText ls ++ rest ≠ [] := fun hnil => by simp [hnil] at hhead
  obtain ⟨prev, hfind⟩ :=
    identityComment_forward.find?_append none (passesBefore_identityComment hfront hhead)
  have hhere := find?_of_match hne (identityComment_commentText hend prev rest)
  rw [hintsInMarkup?, List.append_assoc, hfind, hhere]
  exact congrArg some (hintsOfLines_body hls)

/-- What is printed of a record does not end the comment, and stands on lines of its own. -/
theorem IdentityHints.Printable.lines {h : IdentityHints} (hprint : h.Printable) :
    (∀ l ∈ h.lines, '\n' ∉ l) ∧ Lacks "-->" (join ['\n'] h.lines) := by
  have hentry : ∀ l ∈ h.lines, '\n' ∉ l ∧ Lacks "-->" l := by
    intro l hl
    obtain ⟨field, value, hvalue, rfl⟩ := IdentityHints.mem_lines.1 hl
    obtain ⟨-, -, hline, hend⟩ := hprint field value hvalue
    have hkey : '\n' ∉ field.key ++ ": " ∧ Lacks "-->" (field.key ++ ": ")
        ∧ (field.key ++ ": ").getLast? = some ' ' := by cases field <;> decide
    refine ⟨List.not_mem_append hkey.1 hline, hkey.2.1.append hend (apart_of_last fun c hc => ?_)⟩
    obtain rfl : ' ' = c := Option.some.inj (hkey.2.2.symm.trans hc)
    decide
  refine ⟨fun l hl => (hentry l hl).1, ?_⟩
  by_cases hne : h.lines = []
  · rw [hne]
    decide
  · have hjoined : Lacks "-->" (joinLines h.lines) :=
      lacks_joinLines (by decide) (by decide) fun l hl => (hentry l hl).2
    rw [joinLines_eq_join hne] at hjoined
    exact hjoined.of_infix (List.prefix_append _ _).isInfix

/-- Behind a text that announces no comment, and before any other, the comment says what its lines
say: of each field the last value that a line gives it, and nothing else.  The lines of a record give
the record back. -/
theorem hintsInMarkup?_comment {front : Text} (hfront : Unannounced front) (rest : Text) :
    (∀ ls : List Text, (∀ l ∈ ls, '\n' ∉ l) → Lacks "-->" (join ['\n'] ls) →
        ∃ hints, hintsInMarkup? (front ++ commentText ls ++ rest) = some hints ∧ hints.ReadFrom ls)
      ∧ ∀ record : IdentityHints, record.Printable →
        hintsInMarkup? (front ++ commentText record.lines ++ rest) = some record := by
  constructor
  · intro ls hls hend
    exact ⟨hintsOfLines ls, hintsInMarkup?_commentText hfront hls hend rest, readFrom_hintsOfLines ls⟩
  · intro record hprint
    obtain ⟨hls, hend⟩ := hprint.lines
    rw [hintsInMarkup?_commentText hfront hls hend, hintsOfLines_lines hprint]

/-- A text with another comment, which names the comment that is looked for. -/
def decoyFront : Text := "<p>WIDGET_META</p><!-- no WIDGET_META\nname: decoy\n--><!--\nWIDGET-META-->"

/-- A record with values that look like lines and like parts of marks. -/
def plansHints : IdentityHints :=
  { name := some "plans", title := some "Plans: name: x", icon := some "<!-- -> --" }

/-- Neither a comment in front nor one behind changes what is read. -/
theorem hintsInMarkup?_comment_plans :
    Unannounced decoyFront
      ∧ (∃ hints, hintsInMarkup? (decoyFront ++ commentText mixedLines ++ commentText ["name: late"])
          = some hints ∧ hints.ReadFrom mixedLines)
      ∧ hintsInMarkup? (decoyFront ++ commentText plansHints.lines ++ "-->") = some plansHints := by
  have hfront : Unannounced decoyFront := by decide +kernel
  have hprint : plansHints.Printable := by
    intro field
    cases field <;> decide
  exact ⟨hfront, (hintsInMarkup?_comment hfront _).1 mixedLines (by decide) (by decide +kernel),
    (hintsInMarkup?_comment hfront _).2 plansHints hprint⟩

end WidgetCompiler
