import DocIndex.Text.Blank

/-!
# Blanks at the ends of a text

A text with blanks put around it is trimmed to the text itself, if that has none at its ends.
-/

namespace DocIndex.Text

/-- A digit is not blank. -/
theorem isBlank_of_isDigit {c : Char} (h : c.isDigit = true) : isBlank c = false := by
  have hc : 48 ≤ c.toNat ∧ c.toNat ≤ 57 := Char.isDigit_iff_toNat.mp h
  rw [← Bool.not_eq_true]
  simp only [isBlank, Bool.or_eq_true, Bool.and_eq_true, Nat.ble_eq, beq_iff_eq]
  omega

theorem dropWhile_append_of_all {p : Char → Bool} {front text : List Char} (hfront : ∀ c ∈ front, p c = true)
    (htext : ∀ c ∈ text.head?, p c = false) : (front ++ text).dropWhile p = text := by
  rw [List.dropWhile_append_of_pos hfront]
  cases text with
  | nil => rfl
  | cons c text => exact List.dropWhile_cons_of_neg (by simp [htext c rfl])

/-- Blanks in front of a text that does not start with one are dropped. -/
theorem trimStart_append {blanks text : List Char} (hblanks : ∀ c ∈ blanks, isBlank c = true)
    (htext : ∀ c ∈ text.head?, isBlank c = false) : trimStart (blanks ++ text) = text :=
  dropWhile_append_of_all hblanks htext

theorem trimStart_of_head {text : List Char} (h : ∀ c ∈ text.head?, isBlank c = false) :
    trimStart text = text :=
  @trimStart_append [] text (by simp) h

/-- A text without blanks is what is left of it when blanks are put around it and trimmed. -/
theorem trim_append {before text after : List Char} (hbefore : ∀ c ∈ before, isBlank c = true)
    (htext : ∀ c ∈ text, isBlank c = false) (hafter : ∀ c ∈ after, isBlank c = true) :
    trim (before ++ text ++ after) = text := by
  have hend : ∀ c ∈ text.reverse.head?, isBlank c = false := fun c h =>
    htext c (List.mem_reverse.mp (List.mem_of_mem_head? h))
  cases text with
  | nil =>
    have hnone : trimStart (before ++ after ++ []) = [] := trimStart_append (fun c h =>
      (List.mem_append.mp h).elim (hbefore c) (hafter c)) (by simp)
    rw [List.append_nil] at hnone
    rw [List.append_nil, trim, hnone]
    rfl
  | cons c text =>
    have hstart : trimStart (before ++ (c :: text) ++ after) = c :: text ++ after := by
      rw [List.append_assoc]
      exact trimStart_append hbefore fun d h => by
        obtain rfl := Option.some.inj h
        exact htext c List.mem_cons_self
    rw [trim, hstart, trimEnd, List.reverse_append,
      dropWhile_append_of_all (fun d h => hafter d (List.mem_reverse.mp h)) hend, List.reverse_reverse]

theorem trim_of_forall {text : List Char} (h : ∀ c ∈ text, isBlank c = false) : trim text = text := by
  have htrim := @trim_append [] text [] (by simp) h (by simp)
  rwa [List.nil_append, List.append_nil] at htrim

theorem trimEnd_sublist (text : List Char) : (trimEnd text).Sublist text := by
  rw [trimEnd, ← List.reverse_sublist, List.reverse_reverse]
  exact List.dropWhile_sublist _

/-- A text that starts with no blank is trimmed only behind its first character. -/
theorem trim_cons {c : Char} (h : isBlank c = false) (rest : List Char) :
    trim (c :: rest) = c :: trimEnd rest := by
  rw [trim, trimStart, List.dropWhile_cons_of_neg (by rw [h]; decide), trimEnd, trimEnd, List.reverse_cons,
    List.dropWhile_append]
  split
  · rename_i hempty
    rw [List.isEmpty_iff.mp hempty, List.dropWhile_cons_of_neg (by rw [h]; decide)]
    rfl
  · rw [List.reverse_append]
    rfl

end DocIndex.Text
