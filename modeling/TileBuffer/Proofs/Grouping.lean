import Mathlib.Data.List.Perm.Basic

namespace TileBuffer

variable {α β κ : Type}

/-- A test of all neighbours finds out whether a list is sorted, since the order is transitive. -/
theorem test_iff_pairwise {le : α → α → Bool} (trans : ∀ a b c, le a b → le b c → le a c)
    {test : List α → Bool} (nil : test [] = true) (singleton : ∀ a, test [a] = true)
    (cons : ∀ a b l, test (a :: b :: l) = (le a b && test (b :: l))) (l : List α) :
    test l = true ↔ l.Pairwise fun a b ↦ le a b = true := by
  have : Trans (fun a b ↦ le a b = true) (fun a b ↦ le a b = true) (fun a b ↦ le a b = true) :=
    ⟨fun h h' ↦ trans _ _ _ h h'⟩
  rw [← List.isChain_iff_pairwise]
  induction l with
  | nil => simp [nil]
  | cons a l ih =>
    cases l with
    | nil => simp [singleton]
    | cons b l => simp only [cons, Bool.and_eq_true, List.isChain_cons_cons, ih]

/-- Elements that the order does not tell apart come out of a merge sort as they went in. -/
theorem filter_mergeSort {le : α → α → Bool} (trans : ∀ a b c, le a b → le b c → le a c)
    (total : ∀ a b, le a b || le b a) {p : α → Bool} (hp : ∀ a b, p a → p b → le a b)
    (l : List α) : (l.mergeSort le).filter p = l.filter p := by
  have hs : (l.filter p).Pairwise (fun a b ↦ le a b) :=
    List.pairwise_of_forall_mem_list fun a ha b hb ↦
      hp a b (List.mem_filter.mp ha).2 (List.mem_filter.mp hb).2
  have h := (List.sublist_mergeSort trans total hs List.filter_sublist).filter p
  rw [List.filter_filter] at h
  simp only [Bool.and_self] at h
  refine (h.eq_of_length ?_).symm
  exact (((List.mergeSort_perm l le).filter p).length_eq).symm

theorem map_eq_self {f : α → α} {l : List α} (h : ∀ a ∈ l, f a = a) : l.map f = l :=
  (List.map_congr_left h).trans (List.map_id l)

theorem perm_of_filter_eq [DecidableEq α] [DecidableEq κ] (key : α → κ) {l l' : List α}
    (h : ∀ k, l.filter (fun a ↦ key a = k) = l'.filter (fun a ↦ key a = k)) : l.Perm l' := by
  rw [List.perm_iff_count]
  intro a
  have hc (m : List α) : m.count a = (m.filter fun b ↦ key b = key a).count a := by
    rw [List.count_filter (by simp)]
  rw [hc l, hc l', h]

/-- The elements of one key are those of the group with that key, if keys of groups are all
different. -/
theorem filter_flatMap_eq [DecidableEq κ] (groups : List β) (elems : β → List α) (key : α → κ)
    (name : β → κ) (hk : ∀ b ∈ groups, ∀ a ∈ elems b, key a = name b)
    (hn : (groups.map name).Nodup) {b : β} (hb : b ∈ groups) :
    (groups.flatMap elems).filter (fun a ↦ key a = name b) = elems b := by
  induction groups with
  | nil => simp at hb
  | cons d groups ih =>
    rw [List.map_cons, List.nodup_cons] at hn
    have hd : ∀ a ∈ elems d, key a = name d := hk d List.mem_cons_self
    have hr : ∀ d ∈ groups, ∀ a ∈ elems d, key a = name d :=
      fun d hd ↦ hk d (List.mem_cons_of_mem _ hd)
    rw [List.flatMap_cons, List.filter_append]
    obtain rfl | hb := List.mem_cons.mp hb
    · have hrest : (groups.flatMap elems).filter (fun a ↦ key a = name b) = [] := by
        rw [List.filter_eq_nil_iff]
        intro a ha he
        obtain ⟨d, hd, ha⟩ := List.mem_flatMap.mp ha
        rw [decide_eq_true_eq, hr d hd a ha] at he
        exact hn.1 (he ▸ List.mem_map_of_mem hd)
      rw [hrest, List.append_nil, List.filter_eq_self]
      exact fun a ha ↦ decide_eq_true (hd a ha)
    · have hfirst : (elems d).filter (fun a ↦ key a = name b) = [] := by
        rw [List.filter_eq_nil_iff]
        intro a ha he
        rw [decide_eq_true_eq, hd a ha] at he
        exact hn.1 (he ▸ List.mem_map_of_mem hb)
      rw [hfirst, List.nil_append, ih hr hn.2 hb]

/-- A list that is sorted by key is known from its elements of each key. -/
theorem eq_of_filter_eq [DecidableEq κ] {le : κ → κ → Prop}
    (antisymm : ∀ k k', le k k' → le k' k → k = k') (key : α → κ) {l l' : List α}
    (hl : l.Pairwise fun a b ↦ le (key a) (key b)) (hl' : l'.Pairwise fun a b ↦ le (key a) (key b))
    (h : ∀ k, l.filter (fun a ↦ key a = k) = l'.filter (fun a ↦ key a = k)) : l = l' := by
  have hmem {m m' : List α} (h : ∀ k, m.filter (fun a ↦ key a = k) = m'.filter fun a ↦ key a = k)
      {a : α} (ha : a ∈ m) : a ∈ m' := by
    have hf : a ∈ m.filter fun b ↦ key b = key a := by simp [ha]
    rw [h] at hf
    exact (List.mem_filter.mp hf).1
  induction l generalizing l' with
  | nil =>
    cases l' with
    | nil => rfl
    | cons b l' => cases hmem (fun k ↦ (h k).symm) (a := b) List.mem_cons_self
  | cons a l ih =>
    cases l' with
    | nil => cases hmem h (a := a) List.mem_cons_self
    | cons b l' =>
      obtain ⟨ha, hl⟩ := List.pairwise_cons.mp hl
      obtain ⟨hb, hl'⟩ := List.pairwise_cons.mp hl'
      -- both lists hold the same keys and start with a least one
      have hk : key a = key b := by
        rcases List.mem_cons.mp (hmem h List.mem_cons_self) with rfl | hal
        · rfl
        · rcases List.mem_cons.mp (hmem (fun k ↦ (h k).symm) List.mem_cons_self) with rfl | hbl
          · rfl
          · exact antisymm _ _ (ha b hbl) (hb a hal)
      have hfirst := h (key a)
      rw [List.filter_cons_of_pos (by simp), List.filter_cons_of_pos (by simp [hk]),
        List.cons.injEq] at hfirst
      rw [hfirst.1, ih hl hl' fun k ↦ ?_]
      by_cases hak : key a = k
      · exact hak ▸ hfirst.2
      · have hrest := h k
        rwa [List.filter_cons_of_neg (by simp [hak]),
          List.filter_cons_of_neg (by simp [← hk, hak])] at hrest

end TileBuffer
