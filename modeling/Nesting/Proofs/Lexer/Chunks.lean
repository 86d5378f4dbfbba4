import Mathlib.Data.List.Basic
import Nesting.Proofs.Lexer.Order

/-! # The order of chunks is the falling order of texts

`compareChunks` looks at beginnings first and compares the texts only when neither begins the other.
The main statement, `isFalling_compareChunks`, is that these special cases change nothing: the
comparison is that of the characters or of the bytes, turned round.  So it is a total order, in
which a text comes before its proper beginnings, and what begins with one text is one stretch of it
that ends with that text (`IsFalling`).

Bytes and characters compare alike because the bytes of a character are apart from those of a
greater one before either ends (`parts_utf8EncodeChar`): then nothing that follows matters. -/

namespace Nesting

/-- The bytes of a text. -/
def bytes (s : String) : List UInt8 := s.toUTF8.data.toList

/-! ### Lists compared by their elements -/

/-- The first list parts from the second, downwards, before either ends. -/
def Parts : List UInt8 → List UInt8 → Prop
  | a :: u, b :: v => a < b ∨ a = b ∧ Parts u v
  | _, _ => False

theorem Parts.compareLex_append {u v : List UInt8} (h : Parts u v) (u' v' : List UInt8) :
    List.compareLex compare (u ++ u') (v ++ v') = .lt := by
  induction u generalizing v with
  | nil => exact h.elim
  | cons a u ih =>
    cases v with
    | nil => exact h.elim
    | cons b v =>
      rw [List.cons_append, List.cons_append, List.compareLex_cons_cons, Ordering.then_eq_lt]
      rcases h with hlt | ⟨rfl, h⟩
      · exact .inl (Std.compare_eq_lt.mpr hlt)
      · exact .inr ⟨Std.compare_self, ih h⟩

theorem compareLex_append_left {α : Type} [Ord α] [Std.ReflOrd α] (u x y : List α) :
    List.compareLex compare (u ++ x) (u ++ y) = List.compareLex compare x y := by
  induction u with
  | nil => rfl
  | cons a u ih =>
    rw [List.cons_append, List.cons_append, List.compareLex_cons_cons, Std.compare_self, ih]
    rfl

theorem compareLex_swap {α : Type} [Ord α] [Std.OrientedOrd α] (x y : List α) :
    List.compareLex compare x y = (List.compareLex compare y x).swap :=
  Std.OrientedCmp.eq_swap

theorem compareLex_nil_left {α : Type} [Ord α] {y : List α} (h : y ≠ []) :
    List.compareLex compare [] y = .lt := by
  cases y with
  | nil => exact absurd rfl h
  | cons b y => exact List.compareLex_nil_cons

/-- What lies between two lists with one beginning has that beginning too. -/
theorem prefix_of_isLE_compareLex {α : Type} [Ord α] [Std.OrientedOrd α] [Std.LawfulEqOrd α]
    {p x y z : List α} (hx : p <+: x) (hz : p <+: z) (hxy : (List.compareLex compare x y).isLE)
    (hyz : (List.compareLex compare y z).isLE) : p <+: y := by
  induction p generalizing x y z with
  | nil => exact List.nil_prefix
  | cons c p ih =>
    obtain ⟨x, rfl⟩ := hx
    obtain ⟨z, rfl⟩ := hz
    rw [List.cons_append] at hxy hyz
    cases y with
    | nil => simp [List.compareLex_cons_nil] at hxy
    | cons d y =>
      rw [List.compareLex_cons_cons, Ordering.isLE_then_iff_and] at hxy hyz
      -- The first characters are in order both ways, so they are the same.
      have hcd : c = d :=
        Std.LawfulEqOrd.eq_of_compare (Std.OrientedCmp.isLE_antisymm hxy.1 hyz.1)
      subst hcd
      rw [Std.compare_self] at hxy hyz
      have hle : ∀ o : Ordering, Ordering.eq = .lt ∨ o.isLE → o.isLE := by decide
      exact List.cons_prefix_cons.mpr ⟨rfl, ih ⟨x, rfl⟩ ⟨z, rfl⟩ (hle _ hxy.2) (hle _ hyz.2)⟩

/-! ### The bytes of characters -/

theorem bytes_eq (s : String) : bytes s = s.toList.flatMap String.utf8EncodeChar := by
  unfold bytes
  rw [String.toUTF8_eq_toByteArray, ← String.ofList_toList (s := s), String.toByteArray_ofList]
  simp [List.utf8Encode]

theorem parts_nil (v : List UInt8) : ¬ Parts [] v := id

theorem parts_ofNat_cons {m n : Nat} {u v : List UInt8} (hm : m < 256) (hn : n < 256) :
    Parts (UInt8.ofNat m :: u) (UInt8.ofNat n :: v) ↔ m < n ∨ m = n ∧ Parts u v := by
  rw [Parts, UInt8.ofNat_lt_iff_lt hm hn]
  refine or_congr_right (and_congr_left fun _ => ⟨fun h => ?_, fun h => h ▸ rfl⟩)
  have := congrArg UInt8.toNat h
  rwa [UInt8.toNat_ofNat_of_lt' hm, UInt8.toNat_ofNat_of_lt' hn] at this

/-- The bytes of a character part from those of a greater one. -/
theorem parts_utf8EncodeChar {c d : Char} (h : c < d) :
    Parts (String.utf8EncodeChar c) (String.utf8EncodeChar d) := by
  have hlt : c.val.toNat < d.val.toNat := h
  have hd : d.val.toNat < 0x110000 := by
    rcases d.valid with hv | hv
    · exact hv.trans (by decide)
    · exact hv.2
  have hdigit : ∀ n : Nat, n / 4096 = n / 64 / 64 ∧ n / 262144 = n / 64 / 64 / 64 := by omega
  -- The first bytes tell the four lengths apart; within one length the bytes are digits.
  simp only [String.utf8EncodeChar, hdigit]
  split_ifs
  all_goals
    first
    | omega
    | rw [parts_ofNat_cons (by omega) (by omega)]
      simp (disch := omega) only [parts_ofNat_cons, parts_nil, and_false, or_false]
      omega

theorem flatMap_utf8EncodeChar_ne_nil {c : Char} {cs : List Char} :
    (c :: cs).flatMap String.utf8EncodeChar ≠ [] := by
  rw [List.flatMap_cons]
  exact List.append_ne_nil_of_left_ne_nil String.utf8EncodeChar_ne_nil _

/-- Texts compare by their bytes as they do by their characters. -/
theorem compareLex_flatMap_utf8EncodeChar (x y : List Char) :
    List.compareLex compare (x.flatMap String.utf8EncodeChar) (y.flatMap String.utf8EncodeChar) =
      List.compareLex compare x y := by
  induction x generalizing y with
  | nil =>
    cases y with
    | nil => rfl
    | cons d y => rw [List.flatMap_nil, compareLex_nil_left flatMap_utf8EncodeChar_ne_nil,
        List.compareLex_nil_cons]
  | cons c x ih =>
    cases y with
    | nil =>
      rw [compareLex_swap, List.flatMap_nil,
        compareLex_nil_left flatMap_utf8EncodeChar_ne_nil, List.compareLex_cons_nil]
      rfl
    | cons d y =>
      rw [List.compareLex_cons_cons, List.flatMap_cons, List.flatMap_cons]
      rcases lt_trichotomy c d with hlt | rfl | hlt
      · rw [(parts_utf8EncodeChar hlt).compareLex_append, compare_lt_iff_lt.mpr hlt]
        rfl
      · rw [compareLex_append_left, ih, compare_eq_iff_eq.mpr rfl]
        rfl
      · rw [compareLex_swap, (parts_utf8EncodeChar hlt).compareLex_append,
          compare_gt_iff_gt.mpr hlt]
        rfl

theorem compareLex_eq_lt_iff (x y : List Char) : List.compareLex compare x y = .lt ↔ x < y := by
  induction x generalizing y with
  | nil => cases y <;> simp [List.compareLex_nil_nil, List.compareLex_nil_cons]
  | cons c x ih =>
    cases y with
    | nil => simp [List.compareLex_cons_nil]
    | cons d y =>
      rw [List.compareLex_cons_cons, Ordering.then_eq_lt, compare_lt_iff_lt, compare_eq_iff_eq, ih,
        List.cons_lt_cons_iff]

theorem compareLex_toList (x y : String) :
    List.compareLex compare x.toList y.toList = compare x y := by
  rcases lt_trichotomy x y with hlt | rfl | hlt
  · rw [compare_lt_iff_lt.mpr hlt, compareLex_eq_lt_iff]
    exact String.lt_iff_toList_lt.mp hlt
  · rw [compare_eq_iff_eq.mpr rfl]
    exact Std.ReflCmp.compare_self
  · rw [compare_gt_iff_gt.mpr hlt, compareLex_swap,
      (compareLex_eq_lt_iff _ _).mpr (String.lt_iff_toList_lt.mp hlt)]
    rfl

theorem compareLex_bytes (x y : String) :
    List.compareLex compare (bytes x) (bytes y) = List.compareLex compare x.toList y.toList := by
  rw [bytes_eq, bytes_eq, compareLex_flatMap_utf8EncodeChar]

/-! ### The falling order -/

/-- A comparison of texts that is the plain comparison turned round. -/
structure IsFalling (cmp : String → String → Ordering) : Prop where
  eq_bytes : ∀ x y, cmp x y = (List.compareLex compare (bytes x) (bytes y)).swap
  eq_characters : ∀ x y, cmp x y = (List.compareLex compare x.toList y.toList).swap
  eq_texts : ∀ x y, cmp x y = compare y x
  antisymm : ∀ x y, (cmp x y).isLE → (cmp y x).isLE → x = y
  trans : ∀ x y z, (cmp x y).isLE → (cmp y z).isLE → (cmp x z).isLE
  total : ∀ x y, (cmp x y).isLE ∨ (cmp y x).isLE
  swap : ∀ x y, cmp y x = (cmp x y).swap
  eq_iff : ∀ x y, cmp x y = .eq ↔ x = y
  /-- A text comes before its proper beginnings. -/
  longer_first : ∀ p w, w ≠ "" → cmp (p ++ w) p = .lt
  /-- What lies between two texts that begin with `p` begins with `p`. -/
  stretch : ∀ p u v y, (cmp (p ++ u) y).isLE → (cmp y (p ++ v)).isLE → ∃ w, y = p ++ w
  /-- The last text that begins with `p` is `p`. -/
  last : ∀ p w, (cmp (p ++ w) p).isLE

theorem compareChunks_eq_swap (x y : String) :
    compareChunks x y = (List.compareLex compare x.toList y.toList).swap := by
  rw [compareChunks_eq, ← compareLex_toList]
  exact Std.OrientedCmp.eq_swap

theorem compareChunks_append_lt (p : String) {w : String} (h : w ≠ "") :
    compareChunks (p ++ w) p = .lt := by
  rw [compareChunks_eq, compare_lt_iff_lt]
  refine lt_of_le_of_ne (le_of_isPrefixOf ?_) fun heq => h ?_
  · rw [List.isPrefixOf_iff_prefix, String.toList_append]
    exact List.prefix_append _ _
  · have := congrArg String.toList heq
    rw [String.toList_append, List.self_eq_append_right] at this
    exact String.toList_injective this

/-- **Chunks are in the falling order of their texts.**  The special cases for beginnings never
disagree with the comparison of the texts. -/
theorem isFalling_compareChunks : IsFalling compareChunks where
  eq_bytes x y := by rw [compareLex_bytes, compareChunks_eq_swap]
  eq_characters := compareChunks_eq_swap
  eq_texts := compareChunks_eq
  antisymm x y hxy hyx := by
    rw [compareChunks_eq] at hxy hyx
    exact Std.LawfulEqOrd.eq_of_compare (Std.OrientedCmp.isLE_antisymm hyx hxy)
  trans x y z hxy hyz := by
    rw [compareChunks_eq] at hxy hyz ⊢
    exact Std.TransCmp.isLE_trans hyz hxy
  total x y := by
    have hswap : compare x y = (compare y x).swap := Std.OrientedCmp.eq_swap
    rw [compareChunks_eq, compareChunks_eq, hswap]
    cases compare y x <;> decide
  swap x y := by
    rw [compareChunks_eq, compareChunks_eq]
    exact Std.OrientedCmp.eq_swap
  eq_iff x y := by
    rw [compareChunks_eq, compare_eq_iff_eq]
    exact eq_comm
  longer_first p w h := compareChunks_append_lt p h
  stretch p u v y hu hv := by
    rw [compareChunks_eq, ← compareLex_toList, String.toList_append] at hu hv
    obtain ⟨w, hw⟩ :=
      prefix_of_isLE_compareLex (List.prefix_append _ _) (List.prefix_append _ _) hv hu
    exact ⟨String.ofList w, String.toList_injective (by simp [hw])⟩
  last p w := by
    by_cases h : w = ""
    · rw [h, compareChunks_eq, String.append_empty, compare_eq_iff_eq.mpr rfl]
      rfl
    · rw [compareChunks_append_lt p h]
      rfl

example : [">>=", ">>", ">", "=>", "=="].Pairwise fun x y => compareChunks x y = .lt := by
  decide +kernel

end Nesting
