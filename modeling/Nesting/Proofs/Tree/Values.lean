import Mathlib.Data.List.Basic
import Nesting.Token

/-! # Runs of string values

A string is cut into many values, and a tree holds each run of neighbouring values as one token.
`mergeValues` merges the runs of a list of tokens; `mergeValues_concat` and
`mergeValues_concat_value` say how the result grows when one more token comes, and
`value_of_mergeValues_eq_singleton` what a run that is one token altogether holds. -/

namespace Nesting

/-- Tokens in which each run of neighbouring string values is one token.  It stands where the run
begins and covers the text and the line feeds of the whole run. -/
def mergeValues : List Token → List Token
  | [] => []
  | t :: ts =>
    match mergeValues ts with
    | [] => [t]
    | u :: us =>
      if t.kind = .stringValue ∧ u.kind = .stringValue then t.merge u :: us else t :: u :: us

theorem Token.kind_merge (t u : Token) : (t.merge u).kind = t.kind := rfl

theorem Token.merge_assoc (t u v : Token) : (t.merge u).merge v = t.merge (u.merge v) := by
  simp [merge, String.append_assoc, Nat.add_assoc]

theorem mergeValues_eq_nil_iff {ts : List Token} : mergeValues ts = [] ↔ ts = [] := by
  cases ts with
  | nil => exact ⟨fun _ => rfl, fun _ => rfl⟩
  | cons t ts =>
      rw [mergeValues]
      split
      · simp
      · split <;> simp

/-- Merging makes up no kinds. -/
theorem exists_kind_of_mem_mergeValues {ts : List Token} {u : Token} (h : u ∈ mergeValues ts) :
    ∃ t ∈ ts, u.kind = t.kind := by
  induction ts generalizing u with
  | nil => cases h
  | cons t ts ih =>
      rw [mergeValues] at h
      split at h
      · obtain rfl := List.mem_singleton.mp h
        exact ⟨u, List.mem_cons_self, rfl⟩
      · next v vs hm =>
        have later {u : Token} (h : u ∈ v :: vs) : ∃ t' ∈ t :: ts, u.kind = t'.kind := by
          obtain ⟨t', ht', hkind⟩ := ih (hm ▸ h)
          exact ⟨t', List.mem_cons_of_mem t ht', hkind⟩
        split at h
        · rcases List.mem_cons.mp h with rfl | h
          · exact ⟨t, List.mem_cons_self, rfl⟩
          · exact later (List.mem_cons_of_mem v h)
        · rcases List.mem_cons.mp h with rfl | h
          · exact ⟨u, List.mem_cons_self, rfl⟩
          · exact later h

/-- A token that does not go on from a string value is not merged. -/
theorem mergeValues_concat {ts : List Token} {t : Token}
    (h : ¬ (ts.getLast?.map Token.kind = some .stringValue ∧ t.kind = .stringValue)) :
    mergeValues (ts ++ [t]) = mergeValues ts ++ [t] := by
  induction ts with
  | nil => rfl
  | cons x xs ih =>
      rw [List.cons_append, mergeValues, mergeValues]
      cases xs with
      | nil =>
          have hxt : ¬ (x.kind = .stringValue ∧ t.kind = .stringValue) := by simpa using h
          simp [mergeValues, hxt]
      | cons y ys =>
          rw [List.getLast?_cons_cons] at h
          rw [ih h]
          cases hm : mergeValues (y :: ys) with
          | nil => exact absurd (mergeValues_eq_nil_iff.mp hm) (List.cons_ne_nil y ys)
          | cons u us =>
              simp only [List.cons_append]
              split <;> rfl

/-- A string value that goes on from another is added to its run. -/
theorem mergeValues_concat_value {ts us : List Token} {t u : Token} (ht : t.kind = .stringValue)
    (hu : u.kind = .stringValue) (hts : mergeValues ts = us ++ [u]) :
    mergeValues (ts ++ [t]) = us ++ [u.merge t] := by
  induction ts generalizing us u with
  | nil => simp [mergeValues] at hts
  | cons x xs ih =>
      rw [List.cons_append, mergeValues]
      rw [mergeValues] at hts
      split at hts
      · next hm =>
        obtain ⟨rfl, hx⟩ := List.append_inj' (show [] ++ [x] = us ++ [u] from hts) rfl
        obtain rfl := List.singleton_inj.mp hx
        rw [mergeValues_eq_nil_iff.mp hm]
        simp [mergeValues, hu, ht]
      · next v vs hm =>
        rcases List.eq_nil_or_concat' vs with rfl | ⟨ws, w, rfl⟩
        · split at hts
          · next hkinds =>
            -- The run goes back to the first token: merging is associative.
            obtain ⟨rfl, hu⟩ := List.append_inj' (show [] ++ [x.merge v] = us ++ [u] from hts) rfl
            obtain rfl := List.singleton_inj.mp hu
            rw [ih hkinds.2 (show mergeValues xs = [] ++ [v] from hm)]
            simp [Token.kind_merge, hkinds.1, hkinds.2, Token.merge_assoc]
          · next hkinds =>
            obtain ⟨rfl, hv⟩ := List.append_inj' (show [x] ++ [v] = us ++ [u] from hts) rfl
            obtain rfl := List.singleton_inj.mp hv
            rw [ih hu (show mergeValues xs = [] ++ [v] from hm)]
            simp [Token.kind_merge, hkinds]
        · split at hts
          · next hkinds =>
            obtain ⟨rfl, hw⟩ :=
              List.append_inj' (show x.merge v :: ws ++ [w] = us ++ [u] from hts) rfl
            obtain rfl := List.singleton_inj.mp hw
            rw [ih hu (show mergeValues xs = v :: ws ++ [w] from hm)]
            simp [hkinds]
          · next hkinds =>
            obtain ⟨rfl, hw⟩ := List.append_inj' (show x :: v :: ws ++ [w] = us ++ [u] from hts) rfl
            obtain rfl := List.singleton_inj.mp hw
            rw [ih hu (show mergeValues xs = v :: ws ++ [w] from hm)]
            simp [hkinds]

/-- A single token that stands for a run has the text of the run; it is a string value only where
the run holds nothing else. -/
theorem value_of_mergeValues_eq_singleton {ts : List Token} {t : Token}
    (h : mergeValues ts = [t]) : t.value = String.join (ts.map Token.value) ∧
      (t.kind = .stringValue → ∀ u ∈ ts, u.kind = .stringValue) := by
  induction ts generalizing t with
  | nil => cases h
  | cons x xs ih =>
      rw [mergeValues] at h
      split at h
      · next hnil =>
        obtain rfl := mergeValues_eq_nil_iff.mp hnil
        obtain rfl := List.singleton_inj.mp h
        exact ⟨by simp [String.join_cons], fun ht => List.forall_mem_singleton.mpr ht⟩
      · next u us hm =>
        split at h
        · next hkinds =>
          obtain ⟨rfl, rfl⟩ := List.cons.inj h
          obtain ⟨hvalue, hall⟩ := ih hm
          rw [List.map_cons, String.join_cons, ← hvalue]
          exact ⟨rfl, fun _ => List.forall_mem_cons.mpr ⟨hkinds.1, hall hkinds.2⟩⟩
        · simp at h

end Nesting
