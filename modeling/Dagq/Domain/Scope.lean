/-
# Dagq.Domain.Scope -- the paths a task may change.

A glob is matched segment by segment, and each segment byte by byte.  The documented language of a glob
is one of characters; this file states it and compares the two.  They differ where a `*` may stop inside
a character: each `?` after it then takes a byte, so two of them fit into one character.
-/
import Dagq.Domain.Values
import Dagq.Lib.Utf8
import Dagq.Lib.Wildcard

namespace Dagq

open Lib

/-! ## Matching -/

/-- `segment_matches`, on bytes: `0x2a` is `*` and `0x3f` is `?`. -/
def segmentMatches : List UInt8 → List UInt8 → Bool
  | [], text => text.isEmpty
  | c :: rest, text =>
      if c = 0x2a then
        (List.range (text.length + 1)).any fun skip => segmentMatches rest (text.drop skip)
      else if c = 0x3f then
        -- One character, not one byte: skip a whole UTF-8 sequence.
        let width := (text.head?.map Utf8.width).getD 0
        if 0 < width ∧ width ≤ text.length then segmentMatches rest (text.drop width) else false
      else text.head? = some c && segmentMatches rest text.tail

def segmentsMatch : List (List Char) → List (List Char) → Bool
  | [], path => path.isEmpty
  | first :: rest, path =>
      if first = ['*', '*'] then
        (List.range (path.length + 1)).any fun skip => segmentsMatch rest (path.drop skip)
      else match path with
        | segment :: tail =>
            segmentMatches (Utf8.encode first) (Utf8.encode segment) && segmentsMatch rest tail
        | [] => false

/-- Whether `path` matches `glob`. -/
def globMatches (glob path : String) : Bool := segmentsMatch (segments glob) (segments path)

/-- The paths of `changed` that no glob of `globs` matches, in the order given; empty when `globs` is
empty. -/
def outOfScope (globs changed : List String) : List String :=
  if globs.isEmpty then []
  else changed.filter fun path => !globs.any fun glob => globMatches glob path

example : globMatches "plugins/**/SKILL.md" "plugins/a/b/SKILL.md" = true ∧
    globMatches "a?c" "aéc" = true ∧ globMatches "src/*" "src" = false := by decide +kernel

/-! ## The documented language -/

/-- In a segment `*` is any run of characters, `?` any one, and every other character itself. -/
def charPiece (c : Char) : Piece Char :=
  if c = '*' then .run else if c = '?' then .one fun _ => true else .one (· = c)

/-- The texts of a segment. -/
def segmentLanguage (segment : List Char) : Language Char := Piece.language (segment.map charPiece)

open Classical in
/-- A segment that is exactly `**` is any run of segments, every other one segment of its language. -/
noncomputable def segmentPiece (segment : List Char) : Piece (List Char) :=
  if segment = ['*', '*'] then .run else .one fun text => decide (text ∈ segmentLanguage segment)

/-- The path is in the documented language of the glob. -/
def InGlob (glob path : String) : Prop :=
  segments path ∈ Piece.language ((segments glob).map segmentPiece)

/-! ## Where bytes are characters -/

/-- The `?` of the wildcards a segment begins with. -/
def asksAhead : List Char → Nat
  | [] => 0
  | c :: rest => if c = '*' then asksAhead rest else if c = '?' then asksAhead rest + 1 else 0

/-- Some `*` is followed by two `?`, with nothing but wildcards between. -/
def countsBytes : List Char → Bool
  | [] => false
  | c :: rest => (c = '*' && 2 ≤ asksAhead rest) || countsBytes rest

/-- No `*` of the glob can stop inside a character that `?`s then use up. -/
def readsCharacters (glob : String) : Bool := (segments glob).all fun segment => !countsBytes segment

/-! ## The byte matcher, one piece at a time -/

section Bytes

variable {glob : List UInt8} {text : List UInt8}

theorem segmentMatches_nil : segmentMatches [] text = true ↔ text = [] := List.isEmpty_iff

theorem segmentMatches_star :
    segmentMatches (0x2a :: glob) text = true ↔ ∃ n, segmentMatches glob (text.drop n) = true := by
  rw [segmentMatches, if_pos rfl, List.any_eq_true]
  constructor
  · rintro ⟨n, _, h⟩
    exact ⟨n, h⟩
  · rintro ⟨n, h⟩
    by_cases hn : n ≤ text.length
    · exact ⟨n, List.mem_range.mpr (by omega), h⟩
    · refine ⟨text.length, List.mem_range.mpr (by omega), ?_⟩
      rwa [List.drop_of_length_le (by omega), ← List.drop_of_length_le (show text.length ≤ n by omega)]

theorem segmentMatches_ask {b : UInt8} :
    segmentMatches (0x3f :: glob) (b :: text) = true ↔
      0 < Utf8.width b ∧ Utf8.width b ≤ text.length + 1 ∧
        segmentMatches glob ((b :: text).drop (Utf8.width b)) = true := by
  rw [segmentMatches, if_neg (by decide), if_pos rfl]
  dsimp only [List.head?_cons, Option.map_some, Option.getD_some, List.length_cons]
  split
  · rename_i hwidth
    exact ⟨fun h => ⟨hwidth.1, hwidth.2, h⟩, fun h => h.2.2⟩
  · rename_i hwidth
    exact ⟨(fun h => by cases h), fun h => absurd ⟨h.1, h.2.1⟩ hwidth⟩

theorem segmentMatches_ask_nil : segmentMatches (0x3f :: glob) [] = false := by
  rw [segmentMatches, if_neg (by decide), if_pos rfl]
  rfl

/-- Bytes that are no wildcard stand for themselves. -/
theorem segmentMatches_bytes {bs : List UInt8} (hbs : ∀ b ∈ bs, b ≠ 0x2a ∧ b ≠ 0x3f) :
    segmentMatches (bs ++ glob) text = true ↔
      ∃ rest, text = bs ++ rest ∧ segmentMatches glob rest = true := by
  induction bs generalizing text with
  | nil => simp
  | cons b bs ih =>
      obtain ⟨⟨hstar, hask⟩, hbs⟩ := List.forall_mem_cons.mp hbs
      rw [List.cons_append, segmentMatches, if_neg hstar, if_neg hask]
      cases text with
      | nil => simp
      | cons b' text =>
          simp only [List.head?_cons, Option.some.injEq, List.tail_cons, Bool.and_eq_true,
            decide_eq_true_eq, ih hbs]
          constructor
          · rintro ⟨rfl, rest, rfl, h⟩
            exact ⟨rest, rfl, h⟩
          · rintro ⟨rest, h, hrest⟩
            obtain ⟨rfl, rfl⟩ := List.cons.inj h
            exact ⟨rfl, rest, rfl, hrest⟩

/-- The bytes of a literal character are no wildcard. -/
theorem literal_bytes {c : Char} (hstar : c ≠ '*') (hask : c ≠ '?') :
    ∀ b ∈ String.utf8EncodeChar c, b ≠ 0x2a ∧ b ≠ 0x3f := by
  intro b hb
  constructor
  · rintro rfl
    have hchar := Utf8.encodeChar_of_ascii (by decide) hb
    exact hstar (Utf8.encodeChar_inj (show _ ++ [] = String.utf8EncodeChar '*' ++ [] by rw [hchar]; rfl))
  · rintro rfl
    have hchar := Utf8.encodeChar_of_ascii (by decide) hb
    exact hask (Utf8.encodeChar_inj (show _ ++ [] = String.utf8EncodeChar '?' ++ [] by rw [hchar]; rfl))

end Bytes

/-! ## Bytes against characters -/

section Segment

variable {segment text : List Char}

theorem segmentLanguage_nil : text ∈ segmentLanguage [] ↔ text = [] := Piece.mem_language_nil

theorem segmentLanguage_star : text ∈ segmentLanguage ('*' :: segment) ↔
    ∃ before rest, before ++ rest = text ∧ rest ∈ segmentLanguage segment := Piece.mem_language_run

theorem segmentLanguage_ask : text ∈ segmentLanguage ('?' :: segment) ↔
    ∃ c rest, text = c :: rest ∧ rest ∈ segmentLanguage segment := by
  show text ∈ Piece.language (.one (fun _ => true) :: _) ↔ _
  rw [Piece.mem_language_one]
  simp [segmentLanguage]

theorem segmentLanguage_literal {c : Char} (hstar : c ≠ '*') (hask : c ≠ '?') :
    text ∈ segmentLanguage (c :: segment) ↔
      ∃ rest, text = c :: rest ∧ rest ∈ segmentLanguage segment := by
  rw [segmentLanguage, List.map_cons, charPiece, if_neg hstar, if_neg hask, Piece.mem_language_one]
  simp [segmentLanguage]

/-- Every text of the segment is matched. -/
theorem segmentMatches_of_mem (h : text ∈ segmentLanguage segment) :
    segmentMatches (Utf8.encode segment) (Utf8.encode text) = true := by
  induction segment generalizing text with
  | nil =>
      rw [segmentLanguage_nil.mp h]
      rfl
  | cons c segment ih =>
      rw [Utf8.encode_cons]
      by_cases hstar : c = '*'
      · subst hstar
        obtain ⟨before, rest, rfl, hrest⟩ := segmentLanguage_star.mp h
        refine segmentMatches_star.mpr ⟨(Utf8.encode before).length, ?_⟩
        rw [Utf8.encode_append, List.drop_left]
        exact ih hrest
      · by_cases hask : c = '?'
        · subst hask
          obtain ⟨d, rest, rfl, hrest⟩ := segmentLanguage_ask.mp h
          obtain ⟨b, ks, hd, hwidth, _⟩ := Utf8.encodeChar_shape d
          rw [Utf8.encode_cons, hd, List.cons_append]
          show segmentMatches (0x3f :: Utf8.encode segment) _ = true
          refine segmentMatches_ask.mpr ⟨by omega, ?_, ?_⟩
          · rw [hwidth, List.length_append]
            omega
          · rw [hwidth, List.drop_succ_cons, List.drop_left]
            exact ih hrest
        · obtain ⟨rest, rfl, hrest⟩ := (segmentLanguage_literal hstar hask).mp h
          exact (segmentMatches_bytes (literal_bytes hstar hask)).mpr ⟨_, Utf8.encode_cons _ _, ih hrest⟩

/-- Inside a character, where continuation bytes are left. -/
def Inside (ks : List UInt8) : Prop := ks ≠ [] ∧ ∀ k ∈ ks, Utf8.isContinuation k = true

/-- A cut inside a character, or after it. -/
theorem cut_inside {ks : List UInt8} (hks : Inside ks) (n : Nat) :
    (∃ ks', Inside ks' ∧ (ks ++ Utf8.encode text).drop n = ks' ++ Utf8.encode text) ∨
      Utf8.Cut text ((ks ++ Utf8.encode text).drop n) := by
  rw [List.drop_append]
  by_cases hn : n < ks.length
  · refine .inl ⟨ks.drop n, ⟨?_, fun k hk => hks.2 k (List.mem_of_mem_drop hk)⟩, ?_⟩
    · rw [Ne, List.drop_eq_nil_iff]
      omega
    · rw [Nat.sub_eq_zero_of_le (Nat.le_of_lt hn), List.drop_zero]
  · rw [List.drop_of_length_le (by omega), List.nil_append]
    exact .inr (Utf8.cut_drop text _)

/-- No literal character begins inside another. -/
theorem literal_not_inside {c : Char} {ks : List UInt8} (hstar : c ≠ '*') (hask : c ≠ '?')
    (hks : Inside ks) :
    ¬segmentMatches (Utf8.encode (c :: segment)) (ks ++ Utf8.encode text) = true := by
  intro h
  obtain ⟨left, htext, _⟩ := (segmentMatches_bytes (literal_bytes hstar hask)).mp h
  obtain ⟨b, ks', hc, _, hfirst, _⟩ := Utf8.encodeChar_shape c
  cases ks with
  | nil => exact hks.1 rfl
  | cons k ks =>
      rw [hc, List.cons_append, List.cons_append, List.cons.injEq] at htext
      rw [← htext.1, hks.2 k List.mem_cons_self] at hfirst
      cases hfirst

/-- Where no `*` is followed by two `?`, a match of bytes is one of characters.  From inside a character
one `?` takes what is left of it, and without a `?` the next `*` does. -/
theorem mem_of_segmentMatches (hchars : countsBytes segment = false) :
    (∀ text, segmentMatches (Utf8.encode segment) (Utf8.encode text) = true →
      text ∈ segmentLanguage segment) ∧
    (∀ ks c text, Inside ks → asksAhead segment ≤ 1 →
      segmentMatches (Utf8.encode segment) (ks ++ Utf8.encode text) = true →
        c :: text ∈ segmentLanguage ('*' :: segment)) ∧
    (∀ ks text, Inside ks → asksAhead segment = 0 →
      segmentMatches (Utf8.encode segment) (ks ++ Utf8.encode text) = true →
        text ∈ segmentLanguage segment) := by
  induction segment with
  | nil =>
      refine ⟨fun text h => ?_, fun ks c text hks _ h => ?_, fun ks text hks _ h => ?_⟩
      · rw [Utf8.encode_nil, segmentMatches_nil, Utf8.encode_eq_nil] at h
        exact segmentLanguage_nil.mpr h
      all_goals
        rw [Utf8.encode_nil, segmentMatches_nil, List.append_eq_nil_iff] at h
        exact absurd h.1 hks.1
  | cons c segment ih =>
      rw [countsBytes, Bool.or_eq_false_iff] at hchars
      obtain ⟨hhere, hchars⟩ := hchars
      obtain ⟨ihP, ihQ, ihR⟩ := ih hchars
      by_cases hstar : c = '*'
      · subst hstar
        have hahead : asksAhead segment ≤ 1 := by
          simpa [Nat.lt_succ_iff] using hhere
        -- The `*` may leave whole characters, or the rest of one.
        have hcut {text : List Char} {left : List UInt8} (hleft : Utf8.Cut text left)
            (h : segmentMatches (Utf8.encode segment) left = true) :
            text ∈ segmentLanguage ('*' :: segment) := by
          cases hleft with
          | between before rest =>
              exact segmentLanguage_star.mpr ⟨before, rest, rfl, ihP rest h⟩
          | inside before d rest ks hne hks =>
              exact Piece.append_mem_run before (ihQ ks d rest ⟨hne, hks⟩ hahead h)
        refine ⟨fun text h => ?_, fun ks d text hks _ h => ?_, fun ks text hks hzero h => ?_⟩
        · obtain ⟨n, h⟩ := segmentMatches_star.mp h
          exact hcut (Utf8.cut_drop text n) h
        · obtain ⟨n, h⟩ := segmentMatches_star.mp h
          refine Piece.mem_run_of_mem ?_
          rcases cut_inside hks n with ⟨ks', hks', heq⟩ | hleft
          · rw [heq] at h
            exact ihQ ks' d text hks' hahead h
          · exact Piece.append_mem_run [d] (hcut hleft h)
        · obtain ⟨n, h⟩ := segmentMatches_star.mp h
          rcases cut_inside hks n with ⟨ks', hks', heq⟩ | hleft
          · rw [heq] at h
            exact Piece.mem_run_of_mem (ihR ks' text hks' hzero h)
          · exact hcut hleft h
      · by_cases hask : c = '?'
        · subst hask
          refine ⟨fun text h => ?_, fun ks d text hks hone h => ?_, fun ks text hks hzero h => ?_⟩
          · have h : segmentMatches (0x3f :: Utf8.encode segment) (Utf8.encode text) = true := h
            cases text with
            | nil =>
                rw [Utf8.encode_nil, segmentMatches_ask_nil] at h
                cases h
            | cons d text =>
                obtain ⟨b, ks, hd, hwidth, _⟩ := Utf8.encodeChar_shape d
                rw [Utf8.encode_cons, hd, List.cons_append, segmentMatches_ask, hwidth,
                  List.drop_succ_cons, List.drop_left] at h
                exact segmentLanguage_ask.mpr ⟨d, text, rfl, ihP text h.2.2⟩
          · have h : segmentMatches (0x3f :: Utf8.encode segment) (ks ++ Utf8.encode text) = true := h
            have hzero : asksAhead segment = 0 := by
              simpa [asksAhead] using hone
            cases ks with
            | nil => exact absurd rfl hks.1
            | cons k ks =>
                obtain ⟨hk, hks⟩ := List.forall_mem_cons.mp hks.2
                rw [List.cons_append, segmentMatches_ask, Utf8.width_of_continuation hk,
                  List.drop_succ_cons, List.drop_zero] at h
                have htext : text ∈ segmentLanguage segment := by
                  by_cases hnil : ks = []
                  · subst hnil
                    exact ihP text h.2.2
                  · exact ihR ks text ⟨hnil, hks⟩ hzero h.2.2
                exact Piece.mem_run_of_mem (segmentLanguage_ask.mpr ⟨d, text, rfl, htext⟩)
          · simp [asksAhead] at hzero
        · refine ⟨fun text h => ?_, fun ks d text hks _ h => ?_, fun ks text hks _ h => ?_⟩
          · obtain ⟨left, htext, h⟩ := (segmentMatches_bytes (literal_bytes hstar hask)).mp h
            cases text with
            | nil =>
                obtain ⟨b, ks, hc, _⟩ := Utf8.encodeChar_shape c
                rw [Utf8.encode_nil, hc] at htext
                cases htext
            | cons d text =>
                obtain ⟨rfl, rfl⟩ := Utf8.encodeChar_append_inj htext
                exact (segmentLanguage_literal hstar hask).mpr ⟨text, rfl, ihP text h⟩
          · exact (literal_not_inside hstar hask hks h).elim
          · exact (literal_not_inside hstar hask hks h).elim

end Segment

/-! ## Whole paths -/

/-- What the matcher takes a segment of a glob for. -/
def codePiece (segment : List Char) : Piece (List Char) :=
  if segment = ['*', '*'] then .run
  else .one fun text => segmentMatches (Utf8.encode segment) (Utf8.encode text)

theorem segmentsMatch_eq (glob path : List (List Char)) :
    segmentsMatch glob path = Piece.matchesAll (glob.map codePiece) path := by
  induction glob generalizing path with
  | nil => rfl
  | cons first rest ih =>
      rw [List.map_cons, codePiece]
      by_cases hany : first = ['*', '*']
      · rw [if_pos hany]
        simp only [segmentsMatch, if_pos hany, Piece.matchesAll, ih]
      · rw [if_neg hany]
        cases path with
        | nil => simp only [segmentsMatch, if_neg hany, Piece.matchesAll]
        | cons segment tail => simp only [segmentsMatch, if_neg hany, Piece.matchesAll, ih]

theorem globMatches_iff {glob path : String} :
    globMatches glob path = true ↔ segments path ∈ Piece.language ((segments glob).map codePiece) := by
  rw [globMatches, segmentsMatch_eq]
  exact Piece.matchesAll_iff

/-- Where every `?` takes a character, a segment is matched as documented. -/
theorem codePiece_eq {segment : List Char} (hchars : countsBytes segment = false) :
    codePiece segment = segmentPiece segment := by
  unfold codePiece segmentPiece
  split
  · rfl
  · congr 1
    funext text
    classical
    rw [Bool.eq_iff_iff, decide_eq_true_eq]
    exact ⟨(mem_of_segmentMatches hchars).1 text, segmentMatches_of_mem⟩

/-! ## A path too short

Where a `*` can stop inside a character, the two `?` after it take that character's last two bytes, and
one character is saved. -/

section Short

variable {segment : List Char}

/-- The characters a segment needs at least. -/
def needs (segment : List Char) : Nat := (Piece.kinds (segment.map charPiece)).length

/-- Characters for one more piece of a segment, as many as it needs. -/
theorem exists_before (segment : List Char) {c : Char} (hc : c ≠ '/') : ∃ before : List Char, '/' ∉ before ∧
    before.length + needs segment = needs (c :: segment) ∧
    ∀ bytes, segmentMatches (Utf8.encode segment) bytes = true →
      segmentMatches (Utf8.encode (c :: segment)) (Utf8.encode before ++ bytes) = true := by
  by_cases hstar : c = '*'
  · subst hstar
    exact ⟨[], by simp, Nat.zero_add _, fun bytes h => segmentMatches_star.mpr ⟨0, h⟩⟩
  · by_cases hask : c = '?'
    · subst hask
      refine ⟨['x'], by decide, Nat.add_comm 1 _, fun bytes h => ?_⟩
      exact segmentMatches_ask.mpr ⟨by decide, Nat.le_add_left 1 _, h⟩
    · refine ⟨[c], by simpa using Ne.symm hc, ?_, fun bytes h => ?_⟩
      · rw [needs, needs, List.map_cons, charPiece, if_neg hstar, if_neg hask]
        exact Nat.add_comm 1 _
      · refine (segmentMatches_bytes (literal_bytes hstar hask)).mpr ⟨bytes, ?_, h⟩
        rw [Utf8.encode_cons, Utf8.encode_nil, List.append_nil]

/-- The first `?`s of a segment take the continuation bytes they are given, one each. -/
theorem exists_after (us : List UInt8) (hus : ∀ u ∈ us, Utf8.isContinuation u = true)
    (hlen : us.length ≤ asksAhead segment) (hslash : '/' ∉ segment) : ∃ text, '/' ∉ text ∧
      segmentMatches (Utf8.encode segment) (us ++ Utf8.encode text) = true ∧
      text.length + us.length = needs segment := by
  induction segment generalizing us with
  | nil =>
      have hnil : us = [] := List.length_eq_zero_iff.mp (Nat.le_zero.mp hlen)
      subst hnil
      exact ⟨[], by simp, rfl, rfl⟩
  | cons c segment ih =>
      obtain ⟨hc, hfree⟩ := not_or.mp (mt List.mem_cons.mpr hslash)
      -- Continuation bytes left over are taken one by one, each by a `?`.
      cases us with
      | nil =>
          obtain ⟨text, htext, hmatch, hneeds⟩ :=
            ih [] (fun _ h => absurd h List.not_mem_nil) (Nat.zero_le _) hfree
          obtain ⟨before, hbefore, hlength, hprepend⟩ := exists_before segment (Ne.symm hc)
          refine ⟨before ++ text, ?_, ?_, ?_⟩
          · rw [List.mem_append]
            exact fun h => h.elim hbefore htext
          · rw [List.nil_append, Utf8.encode_append]
            exact hprepend _ hmatch
          · rw [List.length_append, ← hlength, ← hneeds]
            rfl
      | cons u us =>
          by_cases hstar : c = '*'
          · subst hstar
            obtain ⟨text, htext, hmatch, hneeds⟩ := ih (u :: us) hus hlen hfree
            exact ⟨text, htext, segmentMatches_star.mpr ⟨0, hmatch⟩, hneeds⟩
          · by_cases hask : c = '?'
            · subst hask
              obtain ⟨hu, hus⟩ := List.forall_mem_cons.mp hus
              obtain ⟨text, htext, hmatch, hneeds⟩ := ih us hus (Nat.le_of_succ_le_succ hlen) hfree
              refine ⟨text, htext, ?_, ?_⟩
              · refine segmentMatches_ask.mpr ?_
                rw [Utf8.width_of_continuation hu]
                exact ⟨by decide, Nat.le_add_left 1 _, hmatch⟩
              · show text.length + us.length + 1 = needs segment + 1
                rw [hneeds]
            · simp [asksAhead, hstar, hask] at hlen

/-- A segment in which `?` can take bytes matches a text that is a character too short for it. -/
theorem exists_short (hbytes : countsBytes segment = true) (hslash : '/' ∉ segment) :
    ∃ text, '/' ∉ text ∧ segmentMatches (Utf8.encode segment) (Utf8.encode text) = true ∧
      text.length + 1 = needs segment := by
  induction segment with
  | nil => cases hbytes
  | cons c segment ih =>
      obtain ⟨hc, hfree⟩ := not_or.mp (mt List.mem_cons.mpr hslash)
      rw [countsBytes, Bool.or_eq_true, Bool.and_eq_true, decide_eq_true_eq, decide_eq_true_eq] at hbytes
      rcases hbytes with ⟨rfl, hasks⟩ | hbytes
      · -- The `*` takes the first byte of `あ`, and the two `?` the others.
        have hbytes : ∀ u ∈ ([0x81, 0x82] : List UInt8), Utf8.isContinuation u = true :=
          List.forall_mem_cons.mpr ⟨by decide, List.forall_mem_singleton.mpr (by decide)⟩
        obtain ⟨text, htext, hmatch, hneeds⟩ := exists_after [0x81, 0x82] hbytes hasks hfree
        refine ⟨'あ' :: text, ?_, segmentMatches_star.mpr ⟨1, hmatch⟩, hneeds⟩
        rw [List.mem_cons, not_or]
        exact ⟨by decide, htext⟩
      · obtain ⟨text, htext, hmatch, hneeds⟩ := ih hbytes hfree
        obtain ⟨before, hbefore, hlength, hprepend⟩ := exists_before segment (Ne.symm hc)
        refine ⟨before ++ text, ?_, ?_, ?_⟩
        · rw [List.mem_append]
          exact fun h => h.elim hbefore htext
        · rw [Utf8.encode_append]
          exact hprepend _ hmatch
        · rw [List.length_append, ← hlength, ← hneeds, Nat.add_assoc]

theorem not_mem_of_short {text : List Char} (h : text.length < needs segment) :
    text ∉ segmentLanguage segment :=
  fun hmem => absurd (Piece.length_kinds_le hmem) (by unfold needs at h; omega)

end Short

theorem kinds_codePiece {segment : List Char} (h : segment ≠ ['*', '*']) (glob : List (List Char)) :
    Piece.kinds ((segment :: glob).map codePiece) =
      (fun text => segmentMatches (Utf8.encode segment) (Utf8.encode text)) ::
        Piece.kinds (glob.map codePiece) := by
  rw [List.map_cons, codePiece, if_neg h]
  rfl

open Classical in
theorem kinds_segmentPiece {segment : List Char} (h : segment ≠ ['*', '*'])
    (glob : List (List Char)) : Piece.kinds ((segment :: glob).map segmentPiece) =
      (fun text => decide (text ∈ segmentLanguage segment)) ::
        Piece.kinds (glob.map segmentPiece) := by
  rw [List.map_cons, segmentPiece, if_neg h]
  rfl

/-- A path the matcher takes that has a segment for each segment of the glob but the `**`, and each is
too short for its own where that can be. -/
theorem exists_path (glob : List (List Char)) (hslash : ∀ segment ∈ glob, '/' ∉ segment) :
    ∃ path : List (List Char), (∀ text ∈ path, '/' ∉ text) ∧
      List.Forall₂ (fun kind text => kind text = true) (Piece.kinds (glob.map codePiece)) path ∧
      path.length = (Piece.kinds (glob.map segmentPiece)).length ∧
      ((∃ segment ∈ glob, countsBytes segment = true) → path ≠ [] ∧
        ¬List.Forall₂ (fun kind text => kind text = true) (Piece.kinds (glob.map segmentPiece))
          path) := by
  induction glob with
  | nil => exact ⟨[], by simp, .nil, rfl, by simp⟩
  | cons segment glob ih =>
      obtain ⟨hhere, hslash⟩ := List.forall_mem_cons.mp hslash
      obtain ⟨path, hpath, hmatch, hlength, hshort⟩ := ih hslash
      by_cases hany : segment = ['*', '*']
      · subst hany
        refine ⟨path, hpath, hmatch, hlength, fun ⟨seg, hmem, hbytes⟩ => hshort ⟨seg, ?_, hbytes⟩⟩
        rcases List.mem_cons.mp hmem with rfl | hmem
        · cases hbytes
        · exact hmem
      · -- A text for this segment, too short where its `?`s can take bytes.
        have htext : ∃ text, '/' ∉ text ∧
            segmentMatches (Utf8.encode segment) (Utf8.encode text) = true ∧
            (countsBytes segment = true → text ∉ segmentLanguage segment) := by
          by_cases hbytes : countsBytes segment = true
          · obtain ⟨text, htext, hmatch, hneeds⟩ := exists_short hbytes hhere
            exact ⟨text, htext, hmatch, fun _ => not_mem_of_short (by omega)⟩
          · obtain ⟨text, htext, hmatch, _⟩ :=
              exists_after [] (fun _ h => absurd h List.not_mem_nil) (Nat.zero_le _) hhere
            exact ⟨text, htext, hmatch, fun h => absurd h hbytes⟩
        obtain ⟨text, hfree, htaken, hout⟩ := htext
        refine ⟨text :: path, List.forall_mem_cons.mpr ⟨hfree, hpath⟩, ?_, ?_, ?_⟩
        · rw [kinds_codePiece hany]
          exact .cons htaken hmatch
        · rw [kinds_segmentPiece hany, List.length_cons, List.length_cons, hlength]
        · rintro ⟨seg, hmem, hbytes⟩
          refine ⟨List.cons_ne_nil _ _, fun h => ?_⟩
          rw [kinds_segmentPiece hany] at h
          obtain ⟨hin, hrest⟩ := List.forall₂_cons.mp h
          rcases List.mem_cons.mp hmem with rfl | hmem
          · exact hout hbytes (by simpa using hin)
          · exact (hshort ⟨seg, hmem, hbytes⟩).2 hrest

/-- No segment has a separator in it. -/
theorem not_mem_segments {s : String} : ∀ segment ∈ segments s, '/' ∉ segment := by
  rw [segments]
  induction s.toList with
  | nil => simp
  | cons c text ih =>
      rw [List.splitOn_cons_eq_if_modifyHead]
      split
      · exact List.forall_mem_cons.mpr ⟨by simp, ih⟩
      · rename_i hc
        have hc : c ≠ '/' := by simpa using hc
        cases hsplit : text.splitOn '/' with
        | nil => simp
        | cons first rest =>
            rw [hsplit] at ih
            obtain ⟨hfirst, hrest⟩ := List.forall_mem_cons.mp ih
            refine List.forall_mem_cons.mpr ⟨?_, hrest⟩
            rw [List.mem_cons, not_or]
            exact ⟨Ne.symm hc, hfirst⟩

/-- Glob and language agree on every path exactly for the globs in which no `*` can leave bytes of a
character to two `?`. -/
theorem globMatches_iff_inGlob (glob : String) :
    (∀ path, globMatches glob path = true ↔ InGlob glob path) ↔ readsCharacters glob = true := by
  constructor
  · intro h
    by_contra hreads
    have hbytes : ∃ segment ∈ segments glob, countsBytes segment = true := by
      simpa [readsCharacters] using hreads
    obtain ⟨path, hslash, hmatch, hlength, hshort⟩ := exists_path (segments glob) not_mem_segments
    obtain ⟨hne, hnot⟩ := hshort hbytes
    have hpath : segments (String.ofList (['/'].intercalate path)) = path := by
      rw [segments, String.toList_ofList]
      exact List.splitOn_intercalate '/' hslash hne
    refine hnot (Piece.forall₂_of_tight ?_ hlength)
    have hin := (h (String.ofList (['/'].intercalate path))).mp
      (globMatches_iff.mpr (by rw [hpath]; exact Piece.mem_of_forall₂ hmatch))
    rwa [InGlob, hpath] at hin
  · intro hreads path
    have hchars : ∀ segment ∈ segments glob, countsBytes segment = false := by
      simpa [readsCharacters] using hreads
    rw [globMatches_iff, InGlob,
      List.map_congr_left fun segment hmem => codePiece_eq (hchars segment hmem)]

/-- The two `?` of `*??` match the last two bytes of one character. -/
theorem globMatches_in_bytes :
    globMatches "*??" "あ" = true ∧ ¬InGlob "*??" "あ" := by
  refine ⟨by decide +kernel, fun h => ?_⟩
  have hsegments : segments "*??" = [['*', '?', '?']] ∧ segments "あ" = [['あ']] := by decide +kernel
  rw [InGlob, hsegments.1, hsegments.2] at h
  obtain ⟨text, rest, htext, hin, _⟩ := Piece.mem_language_one.mp h
  obtain ⟨rfl, _⟩ := List.cons.inj htext
  exact not_mem_of_short (show ['あ'].length < needs ['*', '?', '?'] by decide) (by simpa using hin)

end Dagq
