import Brainfuck.Console

/-!
# Streams that never fail

A console whose calls may be interrupted, but never come to a failure. Its input is a finite
sequence of bytes.
-/

namespace Brainfuck

section Settle

variable {α : Type} {isInterruption : α → Bool} {last : α} {script : List α}

theorem settle_answer (isInterruption : α → Bool) (last : α) (script : List α) :
    (settle isInterruption last script).answer ∈ script ∨
      (settle isInterruption last script).answer = last ∧
        (settle isInterruption last script).rest = [] := by
  unfold settle
  cases h : script.dropWhile isInterruption with
  | nil => exact .inr ⟨rfl, rfl⟩
  | cons a rest =>
    have hmem : a ∈ script.dropWhile isInterruption := by
      rw [h]
      exact List.mem_cons_self
    exact .inl ((List.dropWhile_sublist isInterruption).mem hmem)

theorem mem_of_mem_settle_rest {a : α} (h : a ∈ (settle isInterruption last script).rest) :
    a ∈ script :=
  (List.dropWhile_sublist isInterruption).mem (List.mem_of_mem_tail h)

end Settle

namespace Console

structure NeverFails (c : Console) : Prop where
  reads : ∀ a ∈ c.input, (∃ b, a = .byte b) ∨ a.isInterruption
  writes : ∀ a ∈ c.writes, a = .accepted ∨ a.isInterruption
  flushes : ∀ a ∈ c.flushes, a = .done

variable {c : Console}

theorem NeverFails.flush (h : c.NeverFails) :
    ∃ c', c.flush = (.ok (), c') ∧ c'.NeverFails ∧ c'.input = c.input ∧ c'.output = c.output := by
  unfold Console.flush
  simp only [headD_flushes h.flushes]
  exact ⟨_, rfl, ⟨h.reads, h.writes, fun a ha => h.flushes a (List.mem_of_mem_tail ha)⟩, rfl, rfl⟩

theorem NeverFails.write (h : c.NeverFails) (b : UInt8) :
    ∃ c', c.write b = (.ok (), c') ∧ c'.NeverFails ∧ c'.input = c.input ∧
      c'.output = c.output.push b := by
  have hsettled : (settleWrite c.writes).answer = .accepted := by
    have hnot : (settleWrite c.writes).answer.isInterruption = false :=
      isInterruption_answer_settle rfl c.writes
    rcases settle_answer WriteAnswer.isInterruption .accepted c.writes with hmem | ⟨hlast, -⟩
    · rcases h.writes _ hmem with ha | ha
      · exact ha
      · exact absurd (ha.symm.trans hnot) (by decide)
    · exact hlast
  have hrest : ∀ a ∈ (settleWrite c.writes).rest, a = .accepted ∨ a.isInterruption :=
    fun a ha => h.writes a (mem_of_mem_settle_rest ha)
  unfold Console.write
  simp only [hsettled]
  exact ⟨_, rfl, ⟨h.reads, hrest, h.flushes⟩, rfl, rfl⟩

theorem NeverFails.read (h : c.NeverFails) :
    ∃ c', c.read = (.ok (delivered c.input).head?, c') ∧ c'.NeverFails ∧
      delivered c'.input = (delivered c.input).tail ∧ c'.output = c.output := by
  have hdelivered := delivered_eq c.input
  have hnot : (settleRead c.input).answer.isInterruption = false :=
    isInterruption_answer_settle rfl c.input
  have hrest : ∀ a ∈ (settleRead c.input).rest, (∃ b, a = .byte b) ∨ a.isInterruption :=
    fun a ha => h.reads a (mem_of_mem_settle_rest ha)
  unfold Console.read
  rcases settle_answer ReadAnswer.isInterruption .ended c.input with hmem | ⟨hlast, hend⟩
  · obtain ⟨b, hb⟩ : ∃ b, (settleRead c.input).answer = .byte b := by
      rcases h.reads _ hmem with hb | ha
      · exact hb
      · exact absurd (ha.symm.trans hnot) (by decide)
    rw [hb, ReadAnswer.deliveredThen] at hdelivered
    simp only [hb, hdelivered]
    exact ⟨_, rfl, ⟨hrest, h.writes, h.flushes⟩, rfl, rfl⟩
  · replace hlast : (settleRead c.input).answer = .ended := hlast
    replace hend : (settleRead c.input).rest = [] := hend
    rw [hlast, ReadAnswer.deliveredThen] at hdelivered
    simp only [hlast, hdelivered]
    refine ⟨_, rfl, ⟨hrest, h.writes, h.flushes⟩, ?_, rfl⟩
    rw [hend]
    rfl

end Console

end Brainfuck
