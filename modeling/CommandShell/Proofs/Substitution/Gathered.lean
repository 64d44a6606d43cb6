import CommandShell.Proofs.Substitution.Watch

/-! Where the substitutions of a line are.
The scanner gathers their bodies while it reads the line; a word is searched for them once it is
finished. Both find the same ones. -/
namespace CommandShell
namespace Watch

variable {w : Watch}

theorem noted_initial : initial.Noted := ⟨rfl,by simp [initial]⟩

theorem open_initial : initial.Open := open_empty _ _ rfl (.inl rfl)

theorem foldl_preserves (cs : List Char) (h : w.Noted) (ho : w.Open) :
    (cs.foldl step w).Noted ∧ (cs.foldl step w).Open := by
  induction cs generalizing w with
  | nil => exact ⟨h,ho⟩
  | cons c cs ih =>
    obtain ⟨h',ho'⟩ := step_preserves h ho c
    exact ih h' ho'

theorem reads_of_finish (ho : w.Open) {tokens : List Token} (hf : w.scanner.finish = .ok tokens) :
    (∃ items, Reads items w.scanner.text.toList w.bodies) ∧
      ∃ new, tokens = w.scanner.tokens.toList ++ new ∧
        ∀ t ∈ new, t.hasText = true → t = .plain w.scanner.text ∨ t = .quoted w.scanner.text := by
  have hempty : w.scanner.text = "" ∧ w.bodies = [] →
      ∃ items, Reads items w.scanner.text.toList w.bodies := by
    rintro ⟨ht,hb⟩
    rw [ht,hb]
    exact ⟨[],reads_nil⟩
  have hflush : (w.scanner.flush .plain).tokens.toList =
      w.scanner.tokens.toList ++ w.scanner.flushed .plain := w.scanner.tokens_flush .plain
  have hcollected : ∀ t ∈ w.scanner.flushed .plain, t.hasText = true →
      t = .plain w.scanner.text ∨ t = .quoted w.scanner.text := by
    intro t ht _
    unfold Scanner.flushed at ht
    split_ifs at ht
    · cases ht
    · exact .inl (List.mem_singleton.1 ht)
  unfold Scanner.finish at hf
  unfold Open at ho
  split at hf <;> rename_i hm <;> simp only [hm] at ho
  case h_1 | h_2 | h_3 | h_4 | h_5 => cases hf
  case h_6 =>
    refine ⟨hempty ho,[.verbatim "\\"],?_,by simp [Token.hasText]⟩
    rw [← Except.ok.inj hf]
    simp [Scanner.emit]
  all_goals rw [← Except.ok.inj hf]
  case h_7 => exact ⟨hempty ho,_,hflush,hcollected⟩
  case h_8 =>
    obtain ⟨items,hr,-⟩ := ho
    exact ⟨⟨items,hr⟩,_,hflush,hcollected⟩
  case h_9 => exact ⟨hempty ho,_,hflush,hcollected⟩
  case h_10 =>
    obtain ⟨items,hr⟩ := ho
    exact ⟨⟨_,hr⟩,_,hflush,hcollected⟩

/-- Every line that can be scanned is scanned under watch to the same tokens, and the text of each
is cut into parts that can be spelled as they were typed: the parts between brackets are, in
order, the bodies that were gathered for the token, and what is literal neither is empty nor
stands next to another literal nor holds the beginning of a substitution. -/
theorem spells_of_scan (line : String) {tokens : List Token} (h : Token.scan line = .ok tokens) :
    ∃ noted, Watch.tokens line = .ok noted ∧ noted.map Prod.fst = tokens ∧
      ∀ t bodies, (t,bodies) ∈ noted → ∀ text, t = .plain text ∨ t = .quoted text →
        ∃ spellings, Word.Spelling.Spells spellings text.toList (Word.split text) bodies := by
  have hscan : (run line).scanner.finish = .ok tokens := by
    rw [run,scanner_foldl]
    exact h
  obtain ⟨hn,ho⟩ := foldl_preserves line.toList noted_initial open_initial
  obtain ⟨⟨items,hr⟩,new,hnew,hc⟩ := reads_of_finish ho hscan
  have hcredit := credit_eq new hnew
  refine ⟨(run line).gathered ++ (run line).credit tokens,by rw [Watch.tokens,hscan]; rfl,?_,?_⟩
  · have hfst : (run line).gathered.map Prod.fst = (run line).scanner.tokens.toList := hn.tokens
    rw [List.map_append,hfst,run,hcredit,hnew]
    simp [Function.comp_def]
  · intro t bodies hm text ht
    rw [run,hcredit] at hm
    obtain ⟨items,hr⟩ := hn.credit hr hc t bodies hm text ht
    obtain ⟨sp,hsp⟩ := Word.Spelling.spellable items "" hr.fit
    rw [hr.text,hr.bodies] at hsp
    exact ⟨sp,hsp⟩

def nested : String := "hi \"$(say \")\" $x)$y z\"$$(b)"

/-- The two tokens with substitutions have one body each. -/
theorem spells_of_scan_nested :
    Token.scan nested = .ok [.plain "hi",.space,.quoted "$(say \")\" $x)$y z",.plain "$$(b)"] ∧
      (∃ spellings, Word.Spelling.Spells spellings "$(say \")\" $x)$y z".toList
        (Word.split "$(say \")\" $x)$y z") [.command "say \")\" $x"]) ∧
      ∃ spellings, Word.Spelling.Spells spellings "$$(b)".toList (Word.split "$$(b)")
        [.command "b"] := by
  have h : Token.scan nested =
      .ok [.plain "hi",.space,.quoted "$(say \")\" $x)$y z",.plain "$$(b)"] := by decide +kernel
  obtain ⟨noted,hnoted,-,hspells⟩ := spells_of_scan nested h
  have hgathered : Watch.tokens nested = .ok [(.plain "hi",[]),(.space,[]),
      (.quoted "$(say \")\" $x)$y z",[.command "say \")\" $x"]),
      (.plain "$$(b)",[.command "b"])] := by decide +kernel
  obtain rfl := Except.ok.inj (hnoted.symm.trans hgathered)
  exact ⟨h,hspells _ _ (by simp) _ (.inr rfl),hspells _ _ (by simp) _ (.inl rfl)⟩

end Watch
end CommandShell
