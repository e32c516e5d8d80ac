import Mathlib.Data.List.Forall2
import TileBuffer.Json.Basic
import TileBuffer.Proofs.Grouping

namespace TileBuffer

namespace Json

variable {names : List String} {name : String} {values : List Json} {value j : Json}
  {members others : List (String × Json)}

/-- A record with these values in its fields: their array, or an object that has each field once. -/
inductive IsRecord (names : List String) (values : List Json) : Json → Prop
  | arr (h : values.length = names.length) : IsRecord names values (.arr values)
  | obj {members others : List (String × Json)} (h : values.length = names.length)
      (ho : ∀ m ∈ others, m.1 ∉ names) (hm : members.Perm (names.zip values ++ others)) :
      IsRecord names values (.record members)

/-- A field is left out or repeated, or an array has not one value for each field. -/
inductive Misses (names : List String) : Json → Prop
  | arr {items : List Json} (h : items.length ≠ names.length) : Misses names (.arr items)
  | obj {members : List (String × Json)} {name : String} (hn : name ∈ names)
      (h : (members.map Prod.fst).count name ≠ 1) : Misses names (.record members)

theorem isRecord_record (h : values.length = names.length) :
    IsRecord names values (.record (names.zip values)) := by
  have hm : (names.zip values).Perm (names.zip values ++ []) := by rw [List.append_nil]
  exact .obj h (List.forall_mem_nil _) hm

theorem exists_record {ms : List (Option String × Json)} (h : ms.all fun m ↦ m.1.isSome) :
    ∃ members, Json.obj ms = .record members := by
  induction ms with
  | nil => exact ⟨[], rfl⟩
  | cons m ms ih =>
    rw [List.all_cons, Bool.and_eq_true] at h
    obtain ⟨members, hm⟩ := ih h.2
    obtain ⟨name, hn⟩ := Option.isSome_iff_exists.mp h.1
    rw [record, obj.injEq] at hm
    refine ⟨(name, m.2) :: members, ?_⟩
    rw [record, List.map_cons, ← hm]
    exact congrArg (fun n ↦ obj ((n, m.2) :: ms)) hn

theorem fields?_record : (record members).fields? names =
    names.mapM (member? (members.map fun (name, value) ↦ (some name, value))) := by
  rw [record, fields?, if_pos]
  simp

theorem member?_eq_some_iff :
    member? (members.map fun (name, value) ↦ (some name, value)) name = some value ↔
      members.filter (fun m ↦ m.1 = name) = [(name, value)] := by
  have hf : (members.map fun (name, value) ↦ (some name, value)).filter
      (fun m ↦ m.1 = some name) =
        (members.filter fun m ↦ m.1 = name).map fun (name, value) ↦ (some name, value) := by
    rw [List.filter_map]
    congr 1
    exact List.filter_congr fun m _ ↦ by simp
  have hname : ∀ m ∈ members.filter (fun m ↦ m.1 = name), m.1 = name :=
    fun m hm ↦ of_decide_eq_true (List.mem_filter.mp hm).2
  rw [member?, hf]
  generalize members.filter (fun m ↦ m.1 = name) = found at hname
  match found with
  | [] => simp
  | [m] => simp [Prod.ext_iff, hname m]
  | m :: m' :: found => simp

theorem mapM_eq_some_iff {f : String → Option Json} :
    names.mapM f = some values ↔ List.Forall₂ (fun n v ↦ f n = some v) names values := by
  induction names generalizing values with
  | nil => cases values <;> simp
  | cons n names ih =>
    rw [List.mapM_cons]
    cases values with
    | nil => cases f n <;> cases names.mapM f <;> simp
    | cons v values =>
      rw [List.forall₂_cons, ← ih]
      cases f n <;> cases names.mapM f <;> simp

theorem filter_name_eq_nil (h : name ∉ members.map Prod.fst) :
    members.filter (fun m ↦ m.1 = name) = [] := by
  rw [List.filter_eq_nil_iff]
  intro m hm he
  exact h (List.mem_map.mpr ⟨m, hm, of_decide_eq_true he⟩)

section Zip

variable (hn : names.Nodup) (hl : values.length = names.length)

include hl in
theorem map_fst_zip : (names.zip values).map Prod.fst = names :=
  List.map_fst_zip (Nat.le_of_eq hl.symm)

include hl in
theorem exists_mem_zip (h : name ∈ names) : ∃ value, (name, value) ∈ names.zip values := by
  obtain ⟨⟨_, value⟩, hv, rfl⟩ := List.mem_map.mp (map_fst_zip hl ▸ h)
  exact ⟨value, hv⟩

include hn hl in
theorem filter_zip_eq (h : (name, value) ∈ names.zip values) :
    (names.zip values).filter (fun m ↦ m.1 = name) = [(name, value)] := by
  have := filter_flatMap_eq (names.zip values) (fun m ↦ [m]) Prod.fst Prod.fst (by simp)
    (by rwa [map_fst_zip hl]) h
  rwa [List.flatMap_singleton'] at this

include hn hl in
theorem forall₂_of_perm (ho : ∀ m ∈ others, m.1 ∉ names)
    (hm : members.Perm (names.zip values ++ others)) :
    List.Forall₂ (fun n v ↦ members.filter (fun m ↦ m.1 = n) = [(n, v)]) names values := by
  rw [List.forall₂_iff_zip]
  refine ⟨hl.symm, fun {n v} h ↦ ?_⟩
  have hrest : others.filter (fun m ↦ m.1 = n) = [] := by
    refine filter_name_eq_nil fun hmem ↦ ?_
    obtain ⟨m, hm, rfl⟩ := List.mem_map.mp hmem
    exact ho m hm (List.of_mem_zip h).1
  have := hm.filter fun m ↦ m.1 = n
  rwa [List.filter_append, filter_zip_eq hn hl h, hrest, List.append_nil,
    List.perm_singleton] at this

include hn in
theorem perm_of_forall₂
    (h : List.Forall₂ (fun n v ↦ members.filter (fun m ↦ m.1 = n) = [(n, v)]) names values) :
    members.Perm (names.zip values ++ members.filter fun m ↦ m.1 ∉ names) := by
  classical
  obtain ⟨hl, h⟩ := List.forall₂_iff_zip.mp h
  replace hl := hl.symm
  refine perm_of_filter_eq Prod.fst fun k ↦ ?_
  rw [List.filter_append, List.filter_filter]
  by_cases hk : k ∈ names
  · obtain ⟨v, hv⟩ := exists_mem_zip hl hk
    have hrest (m : String × Json) : (decide (m.1 = k) && decide (m.1 ∉ names)) = false :=
      Bool.and_eq_false_imp.mpr fun he ↦ by simpa [of_decide_eq_true he] using hk
    rw [h hv, filter_zip_eq hn hl hv, List.filter_congr fun m _ ↦ hrest m, List.filter_false,
      List.append_nil]
  · have hrest (m : String × Json) :
        (decide (m.1 = k) && decide (m.1 ∉ names)) = decide (m.1 = k) :=
      Bool.and_eq_left_iff_imp.mpr fun he ↦ by simpa [of_decide_eq_true he] using hk
    have hzip : k ∉ (names.zip values).map Prod.fst := by rwa [map_fst_zip hl]
    rw [filter_name_eq_nil hzip, List.nil_append, List.filter_congr fun m _ ↦ hrest m]

end Zip

theorem fields?_record_eq_some_iff : (record members).fields? names = some values ↔
    List.Forall₂ (fun n v ↦ members.filter (fun m ↦ m.1 = n) = [(n, v)]) names values := by
  rw [fields?_record, mapM_eq_some_iff]
  simp only [member?_eq_some_iff]

theorem IsRecord.fields?_eq (hn : names.Nodup) (h : IsRecord names values j) :
    j.fields? names = some values := by
  cases h with
  | arr hl => rw [fields?, if_pos hl]
  | obj hl ho hm => exact fields?_record_eq_some_iff.mpr (forall₂_of_perm hn hl ho hm)

theorem fields?_eq_some_iff (hn : names.Nodup) :
    j.fields? names = some values ↔ IsRecord names values j := by
  refine ⟨fun h ↦ ?_, IsRecord.fields?_eq hn⟩
  cases j with
  | arr items =>
    rw [fields?, Option.ite_none_right_eq_some] at h
    obtain ⟨hl, h⟩ := h
    cases h
    exact .arr hl
  | obj ms =>
    have hs := h
    rw [fields?, Option.ite_none_right_eq_some] at hs
    obtain ⟨members, hm⟩ := exists_record hs.1
    rw [hm, fields?_record_eq_some_iff] at h
    rw [hm]
    exact .obj h.length_eq.symm (by simp) (perm_of_forall₂ hn h)
  | _ => cases h

theorem Misses.fields?_eq (h : Misses names j) : j.fields? names = none := by
  cases h with
  | arr h => rw [fields?, if_neg h]
  | @obj members name hn h =>
    rw [Option.eq_none_iff_forall_ne_some]
    intro values hv
    obtain ⟨hl, hv⟩ := List.forall₂_iff_zip.mp (fields?_record_eq_some_iff.mp hv)
    obtain ⟨value, hm⟩ := exists_mem_zip hl.symm hn
    apply h
    rw [List.count_eq_countP, List.countP_map, List.countP_eq_length_filter]
    exact congrArg List.length (hv hm)

end Json

end TileBuffer
