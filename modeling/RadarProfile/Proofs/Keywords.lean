import RadarProfile.Proofs.Framing
import RadarProfile.Proofs.Layout
import RadarProfile.Proofs.Words

set_option autoImplicit false

/-! # The kind of a line and its keyword

Two readers look at the text of a line: one finds its kind in the first character that is not
blank, the other cuts the text into words. Both mean the same characters by blank, so the kind
shows in the words (`Line.Kind.ofText_of_command`): a blank line has none, and a comment is a
line whose keyword begins with a percent sign. What a run sends therefore always has a keyword,
and no parameter and no antenna of it is passed over (`Line.kind_by_keyword`). -/

namespace RadarProfile

theorem Spells.exists_dropWhile_eq {word : Text} {ws : List Text} {t : Text}
    (h : Spells (word :: ws) t) : ∃ rest, t.dropWhile isBlank = word ++ rest := by
  have hfront : ∀ {before}, IsGap before → IsWord word → ∀ rest,
      (before ++ (word ++ rest)).dropWhile isBlank = word ++ rest := by
    intro before hbefore hword rest
    obtain ⟨c, word, rfl⟩ := List.exists_cons_of_ne_nil hword.1
    have hc : isBlank c = false := hword.2 c List.mem_cons_self
    rw [List.dropWhile_append_of_pos hbefore, List.cons_append,
      List.dropWhile_cons_of_neg (by simp [hc])]
  cases h with
  | @last before _ isGap isWord =>
      have hlast := hfront isGap isWord []
      rw [List.append_nil] at hlast
      exact ⟨[], hlast.trans (List.append_nil word).symm⟩
  | next isGap isWord => exact ⟨_, hfront isGap isWord _⟩

namespace Line.Kind

theorem ofText_of_none {t : Text} (h : Command.ofText? t = none) : ofText t = .blank := by
  rw [ofText, List.dropWhile_eq_nil_iff.mpr (Command.ofText?_eq_none_iff.mp h)]

/-- **The keyword decides between comments and commands.** -/
theorem ofText_of_command {t : Text} {c : Command} (h : Command.ofText? t = some c) :
    ofText t = if c.keyword.head? = some '%' then .comment else .command := by
  have hspells : Spells (c.keyword :: c.arguments) t := Command.ofText?_eq_some_iff.mp h
  obtain ⟨rest, hrest⟩ := hspells.exists_dropWhile_eq
  have hword : IsWord c.keyword := hspells.isWord_of_mem _ List.mem_cons_self
  obtain ⟨first, others, hkeyword⟩ := List.exists_cons_of_ne_nil hword.1
  rw [hkeyword, List.cons_append] at hrest
  rw [ofText, hrest, hkeyword, List.head?_cons]
  by_cases hfirst : first = '%'
  · subst hfirst
    rfl
  · rw [if_neg fun h => hfirst (Option.some.inj h)]
    split
    · next hnil => cases hnil
    · next hcons => exact absurd (List.cons.inj hcons).1 hfirst
    · rfl

theorem ofText_eq_blank_iff {t : Text} : ofText t = .blank ↔ Command.ofText? t = none := by
  cases h : Command.ofText? t with
  | none => exact iff_of_true (ofText_of_none h) rfl
  | some c =>
      rw [ofText_of_command h]
      refine iff_of_false ?_ (by rintro ⟨⟩)
      split_ifs
      · rintro ⟨⟩
      · rintro ⟨⟩

theorem ofText_eq_comment_iff {t : Text} : ofText t = .comment ↔
    ∃ c, Command.ofText? t = some c ∧ c.keyword.head? = some '%' := by
  cases h : Command.ofText? t with
  | none =>
      rw [ofText_of_none h]
      exact iff_of_false (by rintro ⟨⟩) (by rintro ⟨c, ⟨⟩, -⟩)
  | some c => simp [ofText_of_command h]

theorem ofText_eq_command_iff {t : Text} : ofText t = .command ↔
    ∃ c, Command.ofText? t = some c ∧ c.keyword.head? ≠ some '%' := by
  cases h : Command.ofText? t with
  | none =>
      rw [ofText_of_none h]
      exact iff_of_false (by rintro ⟨⟩) (by rintro ⟨c, ⟨⟩, -⟩)
  | some c => simp [ofText_of_command h]

end Line.Kind

/-- What a run sends has a keyword, and its parameters and antennas are those of a command. -/
theorem Driver.exists_command_of_mem_sends {σ τ : Type} (d : Driver σ τ) (source : Source)
    (state : σ) (stored : τ) {text : Text}
    (h : text ∈ (d.run source state stored).chronicle.sends) :
    ∃ c, Command.ofText? text = some c ∧ c.keyword.head? ≠ some '%' ∧
      parametersOf text = c.parameters ∧ antennasOf text = c.antennas := by
  obtain ⟨line, -, hspoken⟩ := d.exists_line_of_mem_sends source state stored h
  rw [Line.command?_eq] at hspoken
  split_ifs at hspoken with hkind
  obtain rfl := Option.some.inj hspoken
  obtain ⟨c, hc, hkeyword⟩ := Line.Kind.ofText_eq_command_iff.mp hkind
  exact ⟨c, hc, hkeyword, by rw [parametersOf, hc], by rw [antennasOf, hc]⟩

namespace Line

/-- **A line is what its words say.** The text of a line holds no carriage return, and making a
line of it again changes nothing. The line is blank if no command can be read from its text, a
comment if the keyword of that command begins with a percent sign, and otherwise a command,
which alone has a text to send. So whatever a run sends has a keyword, and the parameters and
antennas of that command are those that count. -/
theorem kind_by_keyword (number : Nat) (raw : Text) :
    let line := ofRaw number raw
    ('\r' ∉ line.text ∧ ofRaw number line.text = line) ∧
    (line.kind = .blank ↔ Command.ofText? line.text = none) ∧
    (line.kind = .comment ↔
      ∃ c, Command.ofText? line.text = some c ∧ c.keyword.head? = some '%') ∧
    (line.kind = .command ↔
      ∃ c, Command.ofText? line.text = some c ∧ c.keyword.head? ≠ some '%') ∧
    (line.kind = .command ↔ line.command? = some line.text) ∧
    (line.kind ≠ .command ↔ line.command? = none) ∧
    ∀ {σ τ : Type} (d : Driver σ τ) (source : Source) (state : σ) (stored : τ),
      ∀ text ∈ (d.run source state stored).chronicle.sends,
        ∃ c, Command.ofText? text = some c ∧ c.keyword.head? ≠ some '%' ∧
          parametersOf text = c.parameters ∧ antennasOf text = c.antennas := by
  intro line
  refine ⟨⟨?_, ofRaw_bare number raw⟩, Kind.ofText_eq_blank_iff, Kind.ofText_eq_comment_iff,
    Kind.ofText_eq_command_iff, ?_, ?_, ?_⟩
  · intro hmem
    exact absurd (List.mem_filter.mp hmem).2 (by decide)
  · rw [command?_eq]
    split_ifs with hkind
    · exact iff_of_true hkind rfl
    · exact iff_of_false hkind (by rintro ⟨⟩)
  · rw [command?_eq]
    split_ifs with hkind
    · exact iff_of_false (fun hne => hne hkind) (by rintro ⟨⟩)
    · exact iff_of_true hkind rfl
  · intro σ τ d source state stored text htext
    exact d.exists_command_of_mem_sends source state stored htext

/-- A no-break space and a carriage return stand before the percent sign of a comment, and a
carriage return in the keyword of a command. The command is sent and counted as an antenna. -/
theorem kind_by_keyword_of_returns :
    let comment := ofRaw 1 "\u00a0\r% chirpCfg".toList
    let spoken := ofRaw 2 "\u3000chirp\rCfg 0".toList
    let d := Scripted.driver []
    let sends := (d.run (.ofItems [.ok comment, .ok spoken]) [] []).chronicle.sends
    comment.kind = .comment ∧ spoken.kind = .command ∧ spoken.command? = some spoken.text ∧
      sends = [spoken.text] ∧ ∃ c, Command.ofText? spoken.text = some c ∧
        antennasOf spoken.text = c.antennas ∧ c.antennas = 1 := by
  intro comment spoken d sends
  obtain ⟨-, -, hcomment, -⟩ := kind_by_keyword 1 "\u00a0\r% chirpCfg".toList
  obtain ⟨-, -, -, hcommand, hsent, -, hruns⟩ := kind_by_keyword 2 "\u3000chirp\rCfg 0".toList
  have hsends : sends = [spoken.text] := by decide +kernel
  have hmem : spoken.text ∈ sends := by
    rw [hsends]
    exact List.mem_singleton_self _
  obtain ⟨c, hc, -, -, hantennas⟩ :=
    hruns d (.ofItems [.ok comment, .ok spoken]) [] [] spoken.text hmem
  have hkind : spoken.kind = .command := by decide +kernel
  exact ⟨hcomment.mpr ⟨⟨['%'], ["chirpCfg".toList]⟩, by decide +kernel, rfl⟩, hkind,
    hsent.mp hkind, hsends, c, hc, hantennas, hantennas.symm.trans (by decide +kernel)⟩

end Line

end RadarProfile
