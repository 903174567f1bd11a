/-
# Dagq.Store.SchemaTriggers -- a trigger the checker allows is of the documented form.

The checker reads a trigger as one text, from `CREATE` to `END`; behind its `BEGIN` it cuts the words,
put together again with single blanks, at the semicolons.
-/
import Dagq.Store.SchemaForms

namespace Dagq.Schema

open Lib Sql

variable {head first closing : List Lexeme} {body : List (List Lexeme)}
  {keys : List (List Char)} {names : List Name}

/-! ## Texts put together -/

theorem intercalate_append (sep : List Char) (a b : List Char) (l : List (List Char)) :
    sep.intercalate ((a ++ b) :: l) = a ++ sep.intercalate (b :: l) := by
  cases l with
  | nil => rw [List.intercalate_singleton, List.intercalate_singleton]
  | cons c l =>
      rw [List.intercalate_cons_cons, List.intercalate_cons_cons]
      simp only [List.append_assoc]

theorem intercalate_concat (sep : List Char) {l : List (List Char)} (hl : l ≠ []) (a : List Char) :
    sep.intercalate (l ++ [a]) = sep.intercalate l ++ sep ++ a := by
  induction l with
  | nil => exact absurd rfl hl
  | cons b l ih =>
      cases l with
      | nil => rw [List.singleton_append, List.intercalate_cons_cons, List.intercalate_singleton,
          List.intercalate_singleton]
      | cons c l =>
          have hrest : sep.intercalate (c :: (l ++ [a])) = _ := ih (List.cons_ne_nil c l)
          rw [List.cons_append, List.cons_append, List.intercalate_cons_cons, hrest,
            List.intercalate_cons_cons]
          simp only [List.append_assoc]

theorem idxOf?_append_cons {w : List Char} {l l' : List (List Char)} (h : w ∉ l) :
    (l ++ w :: l').idxOf? w = some l.length := by
  induction l with
  | nil => simp [List.idxOf?_cons]
  | cons v l ih =>
      have hne : v ≠ w := fun heq => h (heq ▸ List.mem_cons_self)
      rw [List.cons_append, List.idxOf?_cons, if_neg (by simpa using hne),
        ih (mt (List.mem_cons_of_mem v) h)]
      rfl

/-! ## The parts of a trigger -/

theorem firstCommand_eq (h : firstCommand head = some first) : ∃ w,
    head = beforeBegin head ++ .word w :: first ∧ uppercase w = "BEGIN".toList := by
  have hsplit : beforeBegin head ++ head.dropWhile (!Lexeme.isKeyword "BEGIN" ·) = head :=
    List.takeWhile_append_dropWhile
  have hnot := List.head?_dropWhile_not (!Lexeme.isKeyword "BEGIN" ·) head
  unfold firstCommand at h
  cases hdrop : head.dropWhile (!Lexeme.isKeyword "BEGIN" ·) with
  | nil =>
      rw [hdrop] at h
      cases h
  | cons t ts =>
      rw [hdrop] at h hnot hsplit
      cases h
      rw [List.head?_cons] at hnot
      cases t with
      | word w => exact ⟨w, hsplit.symm, by simpa [Lexeme.isKeyword, uppercase] using hnot⟩
      | _ => simp [Lexeme.isKeyword] at hnot

theorem Clean.delimits {before rest : List Lexeme} (h : Clean (before ++ rest))
    (hlast : before.getLast?.any Lexeme.isSpace = true) : Delimits isWhitespace (source before) := by
  rcases List.eq_nil_or_concat before with rfl | ⟨init, t, rfl⟩
  · exact .nil
  · rw [List.concat_eq_append] at hlast h ⊢
    have hs : t.isSpace = true := by simpa using hlast
    have htail : Clean (t :: rest) := by
      refine h.suffix ⟨init, ?_⟩
      rw [List.append_assoc, List.singleton_append]
    have hblank := htail.blank_of_space hs
    have hsource := (htail.apart.valid t List.mem_cons_self).source_ne_nil
    rw [source_append, source_cons, source_nil, List.append_nil]
    exact (Delimits.of_blank hblank).append fun hnil => absurd hnil hsource

theorem Breaks.of_append {u : List Char} (hu : u ≠ []) (h : Breaks isWhitespace u) (v : List Char) :
    Breaks isWhitespace (u ++ v) := by
  obtain ⟨c, u, rfl⟩ := List.exists_cons_of_ne_nil hu
  exact h

/-- `END` between blanks. -/
theorem Clean.endWord (h : Clean closing) (hend : isEnd closing = true) : ∃ s e t,
    source closing = s ++ e ++ t ∧ (∀ c ∈ s, isWhitespace c = true) ∧ IsWord isWhitespace e ∧
      uppercase e = "END".toList ∧ ∀ c ∈ t, isWhitespace c = true := by
  unfold isEnd at hend
  split at hend
  · rename_i rest hrest
    obtain ⟨w, r, hskip, hw, hr⟩ := afterWords_cons.mp hrest
    cases hr
    have hsplit : closing = closing.takeWhile Lexeme.isSpace ++ .word w :: rest := by
      rw [← hskip]
      exact List.takeWhile_append_dropWhile.symm
    have hspace : ∀ ts : List Lexeme, ts ⊆ closing → (∀ t ∈ ts, t.isSpace = true) →
        ∀ c ∈ source ts, isWhitespace c = true := by
      intro ts hsub hall c hc
      obtain ⟨t, ht, hc⟩ := List.mem_flatMap.mp hc
      have hplain := h.plain t (hsub ht)
      cases t with
      | space text => exact List.all_eq_true.mp hplain c hc
      | _ => cases hall _ ht
    have hword : Clean (.word w :: rest) := hskip ▸ h.suffix (skip_suffix closing)
    have hsuffix : rest <:+ closing := (List.suffix_cons _ rest).trans (hskip ▸ skip_suffix closing)
    refine ⟨source (closing.takeWhile Lexeme.isSpace), w, source rest, ?_, ?_, hword.isWord, hw, ?_⟩
    · conv_lhs => rw [hsplit]
      rw [source_append, source_cons, List.append_assoc]
      rfl
    · exact hspace _ (List.takeWhile_subset _) fun t ht => List.mem_takeWhile_imp ht
    · exact hspace _ hsuffix.subset (List.all_eq_true.mp hend)
  · cases hend

/-- Where the checker reads `END` as the last word, what is before it are the words of the commands. -/
theorem words_before_end {commands : List (List Char)} {s e t : List Char} {ds : List (List Char)}
    (hs : ∀ c ∈ s, isWhitespace c = true) (he : IsWord isWhitespace e) (hend : uppercase e = "END".toList)
    (ht : ∀ c ∈ t, isWhitespace c = true) (hcommands : commands ≠ [])
    (hds : upperWords ([';'].intercalate (commands ++ [s ++ e ++ t])) = ds ++ ["END".toList]) :
    ds = upperWords ([';'].intercalate (commands ++ [s])) := by
  have hbreaks : Breaks isWhitespace t := fun c hc => ht c (List.mem_of_mem_head? hc)
  have hrest : words isWhitespace t = [] := words_eq_nil_iff.mpr ht
  rw [intercalate_concat _ hcommands] at hds
  by_cases hnil : s = []
  · -- The last word would begin with the semicolon.
    subst hnil
    have hsemi : IsWord isWhitespace (';' :: e) :=
      ⟨List.cons_ne_nil _ _, List.forall_mem_cons.mpr ⟨by decide, he.solid⟩⟩
    obtain ⟨ws, w, hlast, hw⟩ := hsemi.words_last ([';'].intercalate commands)
    have htext : [';'].intercalate commands ++ [';'] ++ ([] ++ e ++ t) =
        ([';'].intercalate commands ++ ';' :: e) ++ t := by simp
    rw [htext, upperWords, words_append_blanks ht, hlast, List.map_append, List.map_singleton] at hds
    have hw' := (List.append_inj' hds rfl).2
    rw [List.cons.injEq] at hw'
    have hlength := hw.length_le
    have hupper := congrArg List.length hw'.1
    have hlong := congrArg List.length hend
    simp only [uppercase, List.length_map] at hupper hlong
    rw [List.length_cons] at hlength
    omega
  · have hdelimits : Delimits isWhitespace ([';'].intercalate commands ++ [';'] ++ s) :=
      (Delimits.of_blank hs).append fun h => absurd h hnil
    have htext : [';'].intercalate commands ++ [';'] ++ (s ++ e ++ t) =
        ([';'].intercalate commands ++ [';'] ++ s) ++ e ++ t := by simp
    rw [htext, upperWords, he.words_mid hdelimits hbreaks, hrest, List.map_append,
      List.map_singleton] at hds
    rw [intercalate_concat _ hcommands]
    exact (List.append_inj' hds rfl).1.symm

/-- The commands the checker cuts out of a trigger are those between the semicolons. -/
theorem commands_eq {chunks : List (List Char)} (hchunks : chunks ≠ [])
    (hsemi : ∀ chunk ∈ chunks, ';' ∉ chunk) :
    ((join (upperWords ([';'].intercalate chunks))).splitOn ';').map (words isWhitespace) =
      chunks.map upperWords := by
  have hword : ∀ w ∈ upperWords ([';'].intercalate chunks), IsWord isWhitespace w := by
    rw [← words_uppercase]
    exact fun w hw => mem_words_isWord hw
  have hsame : words isWhitespace (join (upperWords ([';'].intercalate chunks))) =
      words isWhitespace ([';'].intercalate (chunks.map uppercase)) := by
    rw [join, words_intercalate (by decide) hword, ← words_uppercase]
    refine congrArg _ ?_
    -- Upper case goes through the parts.
    clear hchunks hsemi hword
    induction chunks with
    | nil => rfl
    | cons c chunks ih =>
        cases chunks with
        | nil => simp [uppercase]
        | cons d chunks =>
            rw [List.intercalate_cons_cons, List.map_cons, List.map_cons, List.intercalate_cons_cons,
              ← List.map_cons, ← ih, uppercase, List.map_append, List.map_append]
            rfl
  have hupper : ∀ chunk ∈ chunks.map uppercase, ';' ∉ chunk := by
    intro chunk hchunk hmem
    obtain ⟨c, hc, rfl⟩ := List.mem_map.mp hchunk
    obtain ⟨d, hd, hsame⟩ := List.mem_map.mp hmem
    refine hsemi c hc ?_
    rcases toUpper_cases d with h | ⟨hlow, hhigh, h⟩
    · rw [h] at hsame
      exact hsame ▸ hd
    · rw [hsame] at h
      have hvalue : (';').toNat = 59 := rfl
      omega
  have hpieces : pieces isWhitespace ';' _ = pieces isWhitespace ';' _ :=
    pieces_congr (by decide) hsame
  rw [pieces, pieces, List.splitOn_intercalate _ hupper (by simpa using hchunks),
    List.map_map] at hpieces
  rw [hpieces]
  exact List.map_congr_left fun c _ => words_uppercase c

/-! ## A trigger -/

theorem before_begin {l l' ws : List (List Char)} (h : l ++ "BEGIN".toList :: l' =
    ["CREATE", "TRIGGER"].map String.toList ++ ws) :
    ∃ ws, l = "CREATE".toList :: "TRIGGER".toList :: ws := by
  match l, h with
  | [], h => exact absurd (List.cons.inj h).1 (by decide)
  | [a], h => exact absurd (List.cons.inj (List.cons.inj h).2).1 (by decide)
  | a :: b :: l, h =>
      obtain ⟨ha, h⟩ := List.cons.inj h
      obtain ⟨hb, -⟩ := List.cons.inj h
      exact ⟨l, by rw [ha, hb]⟩

theorem isAllowed_trigger {all ws : List (List Char)}
    (h : all = "CREATE".toList :: "TRIGGER".toList :: ws) (hallowed : isAllowed keys all = true) :
    createdTable all = none ∧ triggerWritesOnly all keys = true := by
  subst h
  exact ⟨rfl, hallowed⟩

/-- A trigger cut at its `BEGIN`, which stands between blanks. -/
structure Cut (head before : List Lexeme) (w : List Char) (first : List Lexeme) : Prop where
  split : head = before ++ .word w :: first
  isBegin : uppercase w = "BEGIN".toList
  blankBefore : before.getLast?.any Lexeme.isSpace = true
  blankBehind : first.head?.any Lexeme.isSpace = true

variable {before : List Lexeme} {w : List Char}

theorem Cut.cleanFirst (h : Cut head before w first) (hhead : Clean head) : Clean first := by
  refine hhead.suffix ?_
  rw [h.split]
  exact (List.suffix_cons _ _).trans (List.suffix_append _ _)

/-- The words of a text that goes on with the trigger: those before `BEGIN`, `BEGIN` and the rest. -/
theorem Cut.words (h : Cut head before w first) (hhead : Clean head) (more : List (List Char)) :
    upperWords ([';'].intercalate (source head :: more)) = upperWords (source before) ++
      "BEGIN".toList :: upperWords ([';'].intercalate (source first :: more)) := by
  have hcleanFirst := h.cleanFirst hhead
  have hcut : Clean (before ++ .word w :: first) := h.split ▸ hhead
  have hword : IsWord isWhitespace w := (hcut.suffix (List.suffix_append _ _)).isWord
  have hbreaks : Breaks isWhitespace ([';'].intercalate (source first :: more)) := by
    have hne : source first ≠ [] := by
      have hblank := h.blankBehind
      cases first with
      | nil => cases hblank
      | cons u us =>
          have hsource := (hcleanFirst.apart.valid u List.mem_cons_self).source_ne_nil
          rw [source_cons]
          exact fun hnil => hsource (List.append_eq_nil_iff.mp hnil).1
    have hout := intercalate_append [';'] (source first) [] more
    rw [List.append_nil] at hout
    rw [hout]
    exact Breaks.of_append hne (hcleanFirst.breaks_of_head h.blankBehind) _
  have htext : [';'].intercalate (source head :: more) =
      source before ++ w ++ [';'].intercalate (source first :: more) := by
    rw [← intercalate_append, h.split, source_append, source_cons, ← List.append_assoc]
    rfl
  rw [upperWords, htext, hword.words_mid (hcut.delimits h.blankBefore) hbreaks, List.map_append,
    List.map_cons, h.isBegin]
  rfl

/-- The words of a trigger begin as it does. -/
theorem Cut.create (h : Cut head before w first) (hhead : Clean head)
    (hcreate : (behind ["CREATE", "TRIGGER"] (upperWords (source head))).isSome) :
    ∃ ws, upperWords (source before) = "CREATE".toList :: "TRIGGER".toList :: ws := by
  have hwords := h.words hhead []
  rw [List.intercalate_singleton] at hwords
  obtain ⟨ws, hws⟩ := Option.isSome_iff_exists.mp hcreate
  exact before_begin (hwords.symm.trans (behind_eq.mp hws))

/-- The commands of a trigger hold no semicolon where its segments hold none. -/
theorem Cut.free (h : Cut head before w first) {s : List Char}
    (hs : ∀ c ∈ s, isWhitespace c = true) (hsemi : ∀ command ∈ head :: body, ';' ∉ source command) :
    ∀ chunk ∈ (first :: body).map source ++ [s], ';' ∉ chunk := by
  intro chunk hchunk hmem
  rcases List.mem_append.mp hchunk with hchunk | hchunk
  · obtain ⟨command, hcommand, rfl⟩ := List.mem_map.mp hchunk
    rcases List.mem_cons.mp hcommand with rfl | hcommand
    · refine hsemi head List.mem_cons_self ?_
      rw [h.split, source_append, source_cons]
      exact List.mem_append_right _ (List.mem_append_right _ hmem)
    · exact hsemi command (List.mem_cons_of_mem _ hcommand) hmem
  · have hblank := hs _ (List.mem_singleton.mp hchunk ▸ hmem)
    exact absurd hblank (by decide)

/-- What the checker asks of a trigger, read off its words. -/
theorem triggerWritesOnly_spec {l rest : List (List Char)} (hbegin : "BEGIN".toList ∉ l)
    (h : triggerWritesOnly (l ++ "BEGIN".toList :: rest) keys = true) :
    l.contains "AFTER".toList = true ∧ ∃ ds, rest = ds ++ ["END".toList] ∧
      ∀ command ∈ ((join ds).splitOn ';').map (words isWhitespace), command ≠ [] →
        ∃ key ∈ keys, writeTarget command = some key := by
  unfold triggerWritesOnly at h
  rw [idxOf?_append_cons hbegin] at h
  simp only [Bool.and_eq_true] at h
  obtain ⟨⟨⟨hafter, hlast⟩, -⟩, hall⟩ := h
  rw [List.take_left] at hafter
  rw [List.drop_append, List.drop_of_length_le (by omega), List.nil_append,
    show l.length + 1 - l.length = 1 by omega, List.drop_one, List.tail_cons] at hall
  refine ⟨hafter, ?_⟩
  rcases List.eq_nil_or_concat rest with rfl | ⟨ds, d, rfl⟩
  · -- The last word is `END`, not `BEGIN`.
    rw [List.getLast?_concat] at hlast
    exact absurd hlast (by decide)
  · rw [List.concat_eq_append] at hlast hall ⊢
    rw [← List.cons_append, ← List.append_assoc, List.getLast?_concat, decide_eq_true_eq,
      Option.some.injEq] at hlast
    rw [List.dropLast_concat] at hall
    refine ⟨ds, by rw [hlast], fun command hcommand hne => ?_⟩
    have hmem : command ∈ (((join ds).splitOn ';').map (words isWhitespace)).filter (· ≠ []) :=
      List.mem_filter.mpr ⟨hcommand, decide_eq_true hne⟩
    obtain ⟨key, hkey, hcreated⟩ := (Option.any_eq_true _ _).mp (List.all_eq_true.mp hall _ hmem)
    exact ⟨key, by simpa using hcreated, hkey⟩

/-- A trigger that the checker lets through runs after the write that fires it and writes only tables
the migration has created. -/
theorem Clean.documentedTrigger {existing : Name → Bool} (hhead : Clean head)
    (hbody : ∀ command ∈ body, Clean command) (hclosing : Clean closing)
    (hp : isPlainTrigger head body = true) (hend : isEnd closing = true)
    (hsemi : ∀ command ∈ head :: body, ';' ∉ source command) (hkeeps : Keeps keys names)
    (hcreate : (behind ["CREATE", "TRIGGER"] (upperWords (source head))).isSome)
    (hallowed : isAllowed keys (upperWords
      ([';'].intercalate ((head :: body).map source ++ [source closing]))) = true) :
    createdTable (upperWords ([';'].intercalate ((head :: body).map source ++ [source closing]))) = none ∧
      Documented existing names (.trigger head body) := by
  simp only [isPlainTrigger, Bool.and_eq_true, Bool.not_eq_true'] at hp
  obtain ⟨⟨hbegin, hafter⟩, hp⟩ := hp
  obtain ⟨first, hfirst, hp⟩ := (Option.any_eq_true _ _).mp hp
  simp only [Bool.and_eq_true] at hp
  obtain ⟨⟨hlast, hspace⟩, hwrites⟩ := hp
  obtain ⟨w, hsplit, hw⟩ := firstCommand_eq hfirst
  have hcut : Cut head (beforeBegin head) w first := ⟨hsplit, hw, hlast, hspace⟩
  obtain ⟨s, e, t, hclosingText, hs, he, heEnd, ht⟩ := hclosing.endWord hend
  have hwords := hcut.words hhead (body.map source ++ [source closing])
  obtain ⟨ws, hws⟩ := hcut.create hhead hcreate
  obtain ⟨hnone, htrigger⟩ := isAllowed_trigger (hwords.trans (by rw [hws]; rfl)) hallowed
  refine ⟨hnone, ?_⟩
  rw [hwords] at htrigger
  obtain ⟨hafterWord, ds, hds, hcommands⟩ := triggerWritesOnly_spec (by simpa using hbegin) htrigger
  have hruns : runsAfter head = true := by
    rw [hafterWord] at hafter
    simpa using hafter
  -- What the checker cuts are the commands, and the blanks before `END`.
  have hne : (first :: body).map source ≠ [] := List.cons_ne_nil _ _
  rw [hclosingText] at hds
  rw [words_before_end hs he heEnd ht hne hds,
    commands_eq (by simp) (hcut.free hs hsemi)] at hcommands
  refine .trigger hruns hfirst fun command hcommand => ?_
  have hclean : Clean command := by
    rcases List.mem_cons.mp hcommand with rfl | hcommand
    · exact hcut.cleanFirst hhead
    · exact hbody command hcommand
  by_cases hnil : upperWords (source command) = []
  · exact .inl (hclean.isBlank (List.map_eq_nil_iff.mp hnil))
  · right
    have hmem : upperWords (source command) ∈ ((first :: body).map source ++ [s]).map upperWords :=
      List.mem_map_of_mem (List.mem_append_left [s] (List.mem_map_of_mem hcommand))
    obtain ⟨key, hcreated, hkey⟩ := hcommands _ hmem hnil
    obtain ⟨name, hname, hkept⟩ := hclean.writes (List.all_eq_true.mp hwrites _ hcommand) hkey
    exact ⟨name, hkeeps.mem hcreated hkept, hname⟩

end Dagq.Schema
