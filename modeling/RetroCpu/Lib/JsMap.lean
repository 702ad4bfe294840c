/-!
# Maps with string keys

A `Map` of the language, as the list of its entries in insertion order: `set` keeps the
place of a key that is there, and puts a new key at the end.
-/

namespace RetroCpu
namespace Js

structure JsMap (α : Type) where
  entries : List (String × α) := []
deriving DecidableEq, Repr

namespace JsMap

variable {α : Type}

def empty : JsMap α := {}

def find : List (String × α) → String → Option α
  | [], _ => none
  | (k, v) :: rest, key => if k = key then some v else find rest key

def get (m : JsMap α) (key : String) : Option α := find m.entries key

def has (m : JsMap α) (key : String) : Bool := (m.get key).isSome

def insert : List (String × α) → String → α → List (String × α)
  | [], key, v => [(key, v)]
  | (k, w) :: rest, key, v => if k = key then (k, v) :: rest else (k, w) :: insert rest key v

attribute [grind =] insert

def set (m : JsMap α) (key : String) (v : α) : JsMap α := ⟨insert m.entries key v⟩

theorem find_insert (l : List (String × α)) (key : String) (v : α) (k : String) :
    find (insert l key v) k = if key = k then some v else find l k := by
  induction l with
  | nil => rfl
  | cons e rest ih =>
      by_cases he : e.1 = key
      · by_cases hk : key = k
        · simp [insert, find, he, hk]
        · simp [insert, find, he, hk]
      · by_cases hk : key = k
        · subst hk
          simp [insert, find, he, ih]
        · simp [insert, find, he, ih, hk]

theorem get_set (m : JsMap α) (key : String) (v : α) (k : String) :
    (m.set key v).get k = if key = k then some v else m.get k := find_insert m.entries key v k

theorem mem_of_find {l : List (String × α)} {k : String} {v : α} (h : find l k = some v) :
    (k, v) ∈ l := by
  induction l with
  | nil => cases h
  | cons e rest ih =>
      unfold find at h
      split at h
      · rename_i hk
        cases h
        simp [← hk]
      · exact List.mem_cons_of_mem _ (ih h)

theorem mem_of_get {m : JsMap α} {k : String} {v : α} (h : m.get k = some v) :
    (k, v) ∈ m.entries := mem_of_find h

theorem mem_insert {l : List (String × α)} {k : String} {v : α} {e : String × α}
    (h : e ∈ insert l k v) : e = (k, v) ∨ e ∈ l := by
  induction l with
  | nil => simpa [insert] using h
  | cons e' rest ih =>
      unfold insert at h
      split at h
      · rename_i hk
        rcases List.mem_cons.mp h with rfl | h
        · exact .inl (by rw [hk])
        · exact .inr (List.mem_cons_of_mem _ h)
      · rcases List.mem_cons.mp h with rfl | h
        · exact .inr (by simp)
        · rcases ih h with h | h
          · exact .inl h
          · exact .inr (List.mem_cons_of_mem _ h)

theorem mem_set {m : JsMap α} {k : String} {v : α} {e : String × α}
    (h : e ∈ (m.set k v).entries) : e = (k, v) ∨ e ∈ m.entries := mem_insert h

section Fold

variable {β : Type} {f : β → String} {g : β → α}

theorem get_foldl_set_of_forall_ne {l : List β} {k : String} (h : ∀ b ∈ l, f b ≠ k) (m : JsMap α) :
    (l.foldl (fun m b => m.set (f b) (g b)) m).get k = m.get k := by
  induction l generalizing m with
  | nil => rfl
  | cons b l ih =>
      have hb : f b ≠ k := h b (by simp)
      rw [List.foldl_cons, ih (fun b' hb' => h b' (by simp [hb'])), get_set]
      simp [hb]

/-- Entries under different keys are all there. -/
theorem get_foldl_set_of_mem {l : List β} (hl : (l.map f).Nodup) {b : β} (hb : b ∈ l)
    (m : JsMap α) : (l.foldl (fun m b => m.set (f b) (g b)) m).get (f b) = some (g b) := by
  induction l generalizing m with
  | nil => cases hb
  | cons c l ih =>
      rw [List.map_cons, List.nodup_cons] at hl
      rw [List.foldl_cons]
      rcases List.mem_cons.mp hb with rfl | hb
      · have hne : ∀ c ∈ l, f c ≠ f b := by
          intro c hc hcb
          exact hl.1 (hcb ▸ List.mem_map_of_mem hc)
        rw [get_foldl_set_of_forall_ne hne, get_set]
        simp
      · exact ih hl.2 hb _

end Fold

end JsMap

/-- What a table of names answers stands in it. -/
theorem mem_of_lookup {α : Type} {table : List (String × α)} {key : String} {v : α}
    (h : table.lookup key = some v) : (key, v) ∈ table := by
  obtain ⟨l₁, l₂, htable, _⟩ := List.lookup_eq_some_iff.mp h
  rw [htable]
  simp

end Js
end RetroCpu
