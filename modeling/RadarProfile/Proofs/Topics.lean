import RadarProfile.Proofs.Lines
import RadarProfile.Schema
import RadarProfile.Session.Service

set_option autoImplicit false

/-! # What can be published

A namespace without wildcards makes a key for a parameter exactly if something is left of it
when the slashes at its ends are gone, and no two slashes follow each other in what is left
(`isValid_topic_iff`). Which parameter it is makes no difference. -/

namespace RadarProfile

namespace KeyExpr

/-- The text has none of the characters that key expressions give a meaning to, slashes
apart. -/
def IsPlain (t : Text) : Prop := ∀ c ∈ t, c ∉ "$*?#".toList

instance : DecidablePred IsPlain := List.decidableBAll fun c => c ∉ "$*?#".toList

/-! ## Plain chunks -/

theorem IsPlain.of_cons {c : Char} {rest : Text} (h : IsPlain (c :: rest)) :
    c ∉ "$*?#".toList ∧ IsPlain rest :=
  ⟨h c List.mem_cons_self, fun other hother => h other (List.mem_cons_of_mem _ hother)⟩

theorem isMixed_of_isPlain {chunk : Text} (h : IsPlain chunk) : isMixed chunk = true := by
  induction chunk with
  | nil => rfl
  | cons c rest ih =>
      obtain ⟨hc, hrest⟩ := h.of_cons
      have hdollar : c ≠ '$' := by
        rintro rfl
        exact hc (by decide)
      have hmember : "$*?#".toList.contains c = false := by
        rw [List.contains_eq_mem, decide_eq_false_iff_not]
        exact hc
      rw [isMixed, hmember, ih hrest]
      · rfl
      · intro tail hc' _
        exact hdollar hc'
      · intro tail hc' _
        exact hdollar hc'

theorem isChunk_of_isPlain {chunk : Text} (h : IsPlain chunk) :
    isChunk chunk = !chunk.isEmpty := by
  have hstar : ∀ rest, chunk ≠ '*' :: rest := by
    rintro rest rfl
    exact h.of_cons.1 (by decide)
  have hdollar : chunk ≠ ['$', '*'] := by
    rintro rfl
    exact h.of_cons.1 (by decide)
  unfold isChunk
  rw [beq_false_of_ne (hstar []), beq_false_of_ne (hstar ['*']), isMixed_of_isPlain h,
    bne_iff_ne.mpr hdollar, Bool.and_true, Bool.and_true, Bool.false_or, Bool.false_or]

theorem isOrdered_of_isPlain {row : List Text} (h : ∀ chunk ∈ row, IsPlain chunk) :
    isOrdered row = true := by
  induction row with
  | nil => rfl
  | cons first rest ih =>
      cases rest with
      | nil => rfl
      | cons second rest =>
          have hfirst : first ≠ ['*', '*'] := by
            rintro rfl
            exact (h _ List.mem_cons_self).of_cons.1 (by decide)
          rw [isOrdered, beq_false_of_ne hfirst,
            ih fun chunk hchunk => h chunk (List.mem_cons_of_mem _ hchunk)]
          rfl

/-! ## Plain texts -/

theorem exists_chunks (t : Text) :
    ∃ front last, t = Lines.join '/' front ++ last ∧ chunks t = front ++ [last] := by
  refine ⟨Lines.ended '/' t, Lines.rest '/' t, (Lines.join_append_rest t).symm, ?_⟩
  exact Lines.splitOnP_eq t

theorem mem_of_mem_chunk {t chunk : Text} {c : Char} (hchunk : chunk ∈ chunks t)
    (hc : c ∈ chunk) : c ∈ t := by
  obtain ⟨front, last, ht, hchunks⟩ := exists_chunks t
  rw [hchunks] at hchunk
  rw [ht]
  rcases List.mem_append.mp hchunk with hfront | hlast
  · exact List.mem_append_left _
      (List.mem_flatMap.mpr ⟨chunk, hfront, List.mem_append_left _ hc⟩)
  · rw [List.mem_singleton] at hlast
    exact List.mem_append_right _ (hlast ▸ hc)

/-- **A plain text is a key expression** if none of its chunks is empty. -/
theorem isValid_iff_of_isPlain {t : Text} (h : IsPlain t) :
    isValid t = true ↔ [] ∉ chunks t := by
  have hplain : ∀ chunk ∈ chunks t, IsPlain chunk := fun chunk hchunk c hc =>
    h c (mem_of_mem_chunk hchunk hc)
  rw [isValid, isOrdered_of_isPlain hplain, Bool.and_true, List.all_eq_true]
  constructor
  · intro hall hempty
    have := hall [] hempty
    revert this
    decide
  · intro hempty chunk hchunk
    rw [isChunk_of_isPlain (hplain chunk hchunk), Bool.not_eq_true', List.isEmpty_eq_false_iff]
    rintro rfl
    exact hempty hchunk

/-! ## Empty chunks -/

abbrev doubleSlash : Text := ['/', '/']

/-- **Where an empty chunk comes from**: there is nothing but it, a slash at an end, or two
slashes in a row. -/
theorem nil_mem_chunks_iff {t : Text} (hhead : t.head? ≠ some '/')
    (hlast : t.getLast? ≠ some '/') : [] ∈ chunks t ↔ t = [] ∨ doubleSlash <:+: t := by
  constructor
  · intro hempty
    obtain ⟨front, last, rfl, hchunks⟩ := exists_chunks t
    rw [hchunks] at hempty
    rcases List.mem_append.mp hempty with hfront | hlast'
    · -- the slash before the empty chunk, if it is not the first one, and the slash after it
      obtain ⟨before, after, rfl⟩ := List.append_of_mem hfront
      rcases List.eq_nil_or_concat before with rfl | ⟨before, chunk, rfl⟩
      · exact absurd rfl hhead
      · refine Or.inr ⟨Lines.join '/' before ++ chunk, Lines.join '/' after ++ last, ?_⟩
        simp [Lines.join]
    · rw [List.mem_singleton] at hlast'
      subst hlast'
      rcases List.eq_nil_or_concat front with rfl | ⟨before, chunk, rfl⟩
      · exact Or.inl rfl
      · exact absurd (by simp [Lines.join]) hlast
  · rintro (rfl | ⟨before, after, rfl⟩)
    · exact List.mem_cons_self
    · have hsplit : chunks (before ++ '/' :: ('/' :: after)) =
          chunks before ++ chunks ('/' :: after) := List.splitOnP_append_cons _ _ rfl
      have hempty : chunks ('/' :: after) = [] :: chunks after := by
        rw [chunks, List.splitOnP_cons_eq_if_modifyHead]
        rfl
      rw [List.append_assoc, show doubleSlash ++ after = '/' :: '/' :: after from rfl, hsplit,
        hempty]
      exact List.mem_append_right _ List.mem_cons_self

/-! ## Trimmed texts -/

theorem mem_of_mem_trimSlashes {t : Text} {c : Char} (h : c ∈ trimSlashes t) : c ∈ t := by
  unfold trimSlashes at h
  rw [List.mem_reverse] at h
  have h := (List.dropWhile_sublist _).subset h
  rw [List.mem_reverse] at h
  exact (List.dropWhile_sublist _).subset h

theorem getLast?_trimSlashes (t : Text) : (trimSlashes t).getLast? ≠ some '/' := by
  rw [trimSlashes, List.getLast?_reverse]
  intro h
  have hfirst := List.head?_dropWhile_not (· == '/') (t.dropWhile (· == '/')).reverse
  rw [h] at hfirst
  exact absurd hfirst (by decide)

theorem head?_trimSlashes (t : Text) : (trimSlashes t).head? ≠ some '/' := by
  intro h
  -- what is trimmed at the end is a prefix of what is left at the front
  have hprefix : trimSlashes t <+: t.dropWhile (· == '/') := by
    rw [trimSlashes, ← List.reverse_suffix, List.reverse_reverse]
    exact List.dropWhile_suffix _
  have hfirst := List.head?_dropWhile_not (· == '/') t
  obtain ⟨rest, hrest⟩ := hprefix
  rw [← hrest, List.head?_append, h] at hfirst
  cases hfirst

/-! ## Overlap -/

/-- Two stars take in every plain key of which no chunk stands apart. -/
theorem overlap_everything {t : Text} (hplain : IsPlain t)
    (hnear : ∀ chunk ∈ chunks t, isApart chunk = false) : overlap everything t = true := by
  have hrow : chunkRow t = (chunks t).map some := by
    apply List.map_congr_left
    intro chunk hchunk
    apply if_neg
    rintro rfl
    exact hplain '*' (mem_of_mem_chunk hchunk List.mem_cons_self) (by decide)
  have hgap : ∀ row : List Text, (∀ chunk ∈ row, isApart chunk = false) →
      Gapped.overlap chunksOverlap (fun chunk => !isApart chunk) [none] (row.map some) =
        true := by
    intro row hrow
    induction row with
    | nil => rfl
    | cons chunk rest ih =>
        have hchunk := hrow chunk List.mem_cons_self
        have hrest := ih fun other hother => hrow other (List.mem_cons_of_mem _ hother)
        unfold Gapped.overlap at hrest ⊢
        rw [List.map_cons, Gapped.against, hrest, hchunk]
        exact Bool.or_true _
  rw [overlap, hrow]
  exact hgap _ hnear

end KeyExpr

namespace Publisher

open KeyExpr

/-- The name is one plain chunk that does not stand apart. -/
structure IsKey (key : Text) : Prop where
  nonempty : key ≠ []
  no_slash : '/' ∉ key
  plain : IsPlain key
  near : isApart key = false

/-- Every parameter has such a name: those of the schema and the antenna tally. -/
theorem isKey_of_mem :
    ∀ key ∈ Schema.antennaParameter :: Schema.rules.map Rule.parameter, IsKey key := by
  have hall : ∀ key ∈ Schema.antennaParameter :: Schema.rules.map Rule.parameter,
      key ≠ [] ∧ '/' ∉ key ∧ IsPlain key ∧ isApart key = false := by decide
  intro key hkey
  obtain ⟨hnonempty, hslash, hplain, hnear⟩ := hall key hkey
  exact ⟨hnonempty, hslash, hplain, hnear⟩

variable {namespaceName key : Text}

theorem isPlain_topic (hplain : IsPlain namespaceName) (hkey : IsKey key) :
    IsPlain (topic namespaceName key) := by
  intro c hc
  rcases List.mem_append.mp hc with hc | hc
  · exact hplain c (mem_of_mem_trimSlashes hc)
  · rcases List.mem_cons.mp hc with rfl | hc
    · decide
    · exact hkey.plain c hc

theorem chunks_topic (hkey : IsKey key) :
    chunks (topic namespaceName key) = chunks (trimSlashes namespaceName) ++ [key] := by
  have hsingle : chunks key = [key] :=
    List.splitOnP_eq_singleton (Lines.beq_eq_false_of_not_mem hkey.no_slash)
  rw [← hsingle]
  exact List.splitOnP_append_cons _ _ rfl

/-- **When a parameter can be published**: the namespace, without the slashes at its ends, is
not empty and has no two slashes in a row. -/
theorem isValid_topic_iff (hplain : IsPlain namespaceName) (hkey : IsKey key) :
    isValid (topic namespaceName key) = true ↔
      trimSlashes namespaceName ≠ [] ∧ ¬ doubleSlash <:+: trimSlashes namespaceName := by
  have hnonempty : ([] : Text) ≠ key := fun h => hkey.nonempty h.symm
  rw [isValid_iff_of_isPlain (isPlain_topic hplain hkey), chunks_topic hkey, List.mem_append,
    List.mem_singleton, nil_mem_chunks_iff (head?_trimSlashes _) (getLast?_trimSlashes _)]
  simp only [hnonempty, or_false, not_or, ne_eq]

/-- Others see what is published, unless a chunk of the namespace stands apart. -/
theorem overlap_topic (hplain : IsPlain namespaceName) (hkey : IsKey key)
    (hnear : ∀ chunk ∈ chunks (trimSlashes namespaceName), isApart chunk = false) :
    overlap everything (topic namespaceName key) = true := by
  apply overlap_everything (isPlain_topic hplain hkey)
  intro chunk hchunk
  rw [chunks_topic hkey] at hchunk
  rcases List.mem_append.mp hchunk with hchunk | hchunk
  · exact hnear chunk hchunk
  · rw [List.mem_singleton.mp hchunk]
    exact hkey.near

end Publisher

end RadarProfile
