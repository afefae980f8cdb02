import Mathlib

/-!
# Checked words

Arithmetic of machine words that has no result where the machine would wrap, divide
by zero or change a value in a conversion, and loops over an array of records whose
body may have no result.
-/
namespace CheckedWords

section word

def addWord (a b : UInt32) : Option UInt32 :=
  if a.toNat + b.toNat < UInt32.size then some (a + b) else none

def subWord (a b : UInt32) : Option UInt32 := if b ≤ a then some (a - b) else none

def mulWord (a b : UInt32) : Option UInt32 :=
  if a.toNat * b.toNat < UInt32.size then some (a * b) else none

def divWord (a b : UInt32) : Option UInt32 := if b = 0 then none else some (a / b)

def modWord (a b : UInt32) : Option UInt32 := if b = 0 then none else some (a % b)

variable {a b : UInt32}

theorem addWord_of_lt (h : a.toNat + b.toNat < UInt32.size) :
    ∃ c, addWord a b = some c ∧ c.toNat = a.toNat + b.toNat := by
  refine ⟨a + b, if_pos h, ?_⟩
  rw [UInt32.toNat_add]
  exact Nat.mod_eq_of_lt h

theorem subWord_of_le (h : b.toNat ≤ a.toNat) :
    ∃ c, subWord a b = some c ∧ c.toNat = a.toNat - b.toNat :=
  ⟨a - b, if_pos (UInt32.le_iff_toNat_le.mpr h),
    UInt32.toNat_sub_of_le a b (UInt32.le_iff_toNat_le.mpr h)⟩

theorem mulWord_of_lt (h : a.toNat * b.toNat < UInt32.size) :
    ∃ c, mulWord a b = some c ∧ c.toNat = a.toNat * b.toNat := by
  refine ⟨a * b, if_pos h, ?_⟩
  rw [UInt32.toNat_mul]
  exact Nat.mod_eq_of_lt h

theorem ne_zero_of_pos (h : 0 < b.toNat) : b ≠ 0 := by
  rintro rfl
  exact absurd h (lt_irrefl 0)

theorem divWord_of_pos (h : 0 < b.toNat) :
    ∃ c, divWord a b = some c ∧ c.toNat = a.toNat / b.toNat :=
  ⟨a / b, if_neg (ne_zero_of_pos h), UInt32.toNat_div a b⟩

theorem modWord_of_pos (h : 0 < b.toNat) :
    ∃ c, modWord a b = some c ∧ c.toNat = a.toNat % b.toNat :=
  ⟨a % b, if_neg (ne_zero_of_pos h), UInt32.toNat_mod a b⟩

end word

section long

def addLong (a b : UInt64) : Option UInt64 :=
  if a.toNat + b.toNat < UInt64.size then some (a + b) else none

def mulLong (a b : UInt64) : Option UInt64 :=
  if a.toNat * b.toNat < UInt64.size then some (a * b) else none

def divLong (a b : UInt64) : Option UInt64 := if b = 0 then none else some (a / b)

variable {a b : UInt64}

theorem addLong_of_lt (h : a.toNat + b.toNat < UInt64.size) :
    ∃ c, addLong a b = some c ∧ c.toNat = a.toNat + b.toNat := by
  refine ⟨a + b, if_pos h, ?_⟩
  rw [UInt64.toNat_add]
  exact Nat.mod_eq_of_lt h

theorem mulLong_of_lt (h : a.toNat * b.toNat < UInt64.size) :
    ∃ c, mulLong a b = some c ∧ c.toNat = a.toNat * b.toNat := by
  refine ⟨a * b, if_pos h, ?_⟩
  rw [UInt64.toNat_mul]
  exact Nat.mod_eq_of_lt h

theorem divLong_of_pos (h : 0 < b.toNat) :
    ∃ c, divLong a b = some c ∧ c.toNat = a.toNat / b.toNat := by
  refine ⟨a / b, if_neg ?_, UInt64.toNat_div a b⟩
  rintro rfl
  exact absurd h (lt_irrefl 0)

end long

section conversions

/-- A 64-bit word as a 32-bit one. -/
def narrow (a : UInt64) : Option UInt32 := if a.toNat < UInt32.size then some a.toUInt32 else none

/-- An unsigned word as a signed one. -/
def signed (a : UInt32) : Option Int32 := if a.toNat < 2 ^ 31 then some a.toInt32 else none

/-- A signed word as an unsigned one. -/
def unsigned (a : Int32) : Option UInt32 := if 0 ≤ a then some a.toUInt32 else none

def addSigned (a b : Int32) : Option Int32 :=
  if -2 ^ 31 ≤ a.toInt + b.toInt ∧ a.toInt + b.toInt < 2 ^ 31 then some (a + b) else none

theorem narrow_of_lt {a : UInt64} (h : a.toNat < UInt32.size) :
    ∃ c, narrow a = some c ∧ c.toNat = a.toNat := by
  refine ⟨a.toUInt32, if_pos h, ?_⟩
  rw [UInt64.toNat_toUInt32]
  exact Nat.mod_eq_of_lt h

theorem signed_of_lt {a : UInt32} (h : a.toNat < 2 ^ 31) : signed a = some (Int32.ofNat a.toNat) := by
  rw [signed, if_pos h, ← UInt32.toInt32_ofNat', UInt32.ofNat_toNat]

theorem unsigned_of_nonneg {a : Int32} (h : 0 ≤ a) : unsigned a = some a.toUInt32 := if_pos h

/-- The sum of two signed words that are small numbers. -/
theorem addSigned_ofNat {m n : Nat} (h : m + n < 2 ^ 31) :
    addSigned (Int32.ofNat m) (Int32.ofNat n) = some (Int32.ofNat (m + n)) := by
  have hm : (Int32.ofNat m).toInt = m := Int32.toInt_ofNat_of_lt (by omega)
  have hn : (Int32.ofNat n).toInt = n := Int32.toInt_ofNat_of_lt (by omega)
  rw [addSigned, if_pos (by rw [hm, hn]; omega), Int32.ofNat_add]

end conversions

section loops

variable {α : Type}

/-- Replaces the element at `i` by what `f` makes of it. -/
def updateAt (f : α → Option α) (i : Nat) (l : List α) : Option (List α) := do
  let a ← l[i]?
  return l.set i (← f a)

/-- A loop over the indexes of an array rewrites every element once. -/
theorem foldlM_updateAt {l : List α} {f : Nat → α → Option α} {g : Nat → α → α}
    (h : ∀ i a, l[i]? = some a → f i a = some (g i a)) :
    (List.range l.length).foldlM (fun acc i => updateAt (f i) i acc) l = some (l.mapIdx g) := by
  have hpre : ∀ n ≤ l.length, (List.range n).foldlM (fun acc i => updateAt (f i) i acc) l =
      some (l.mapIdx fun i a => if i < n then g i a else a) := by
    intro n
    induction n with
    | zero =>
        intro _
        refine congrArg some (List.ext_getElem? fun i => ?_)
        simp
    | succ n ih =>
        intro hn
        rw [List.range_succ, List.foldlM_append, ih (by omega)]
        have hget : (l.mapIdx fun i a => if i < n then g i a else a)[n]? = some l[n] := by
          rw [List.getElem?_mapIdx, List.getElem?_eq_getElem hn]
          simp
        simp only [List.foldlM_cons, List.foldlM_nil, Option.bind_eq_bind, Option.bind_some,
          updateAt, hget, h n l[n] (List.getElem?_eq_getElem hn)]
        refine congrArg some (List.ext_getElem? fun i => ?_)
        by_cases hi : i = n
        · rw [hi, List.getElem?_set_self (by rw [List.length_mapIdx]; exact hn),
            List.getElem?_mapIdx, List.getElem?_eq_getElem hn]
          simp
        · rw [List.getElem?_set_ne (Ne.symm hi), List.getElem?_mapIdx, List.getElem?_mapIdx]
          have hiff : i < n ↔ i < n + 1 := by omega
          simp only [hiff]
  rw [hpre l.length le_rfl]
  refine congrArg some (List.ext_getElem? fun i => ?_)
  rw [List.getElem?_mapIdx, List.getElem?_mapIdx]
  rcases Nat.lt_or_ge i l.length with hi | hi
  · simp only [hi, if_true]
  · rw [List.getElem?_eq_none hi]
    rfl

/-- Loops whose bodies agree on the indexes they run over. -/
theorem foldlM_congr_mem {m : Type → Type} [Monad m] {σ ι : Type} {l : List ι} {f g : σ → ι → m σ}
    (h : ∀ i ∈ l, ∀ s, f s i = g s i) (s : σ) : l.foldlM f s = l.foldlM g s := by
  induction l generalizing s with
  | nil => rfl
  | cons i l ih =>
      rw [List.foldlM_cons, List.foldlM_cons, h i List.mem_cons_self]
      exact bind_congr fun t => ih (fun j hj => h j (List.mem_cons_of_mem _ hj)) t

/-- A loop over rows and columns is a loop over the indexes. -/
theorem foldlM_rows {m : Type → Type} [Monad m] [LawfulMonad m] {σ : Type} (height width : Nat)
    (step : σ → Nat → m σ) (s : σ) :
    (List.range height).foldlM (fun acc y => (List.range width).foldlM
      (fun acc x => step acc (y * width + x)) acc) s =
      (List.range (height * width)).foldlM step s := by
  induction height with
  | zero => simp
  | succ height ih =>
      rw [List.range_succ, List.foldlM_append, ih, Nat.succ_mul, List.range_add,
        List.foldlM_append]
      simp only [List.foldlM_cons, List.foldlM_nil, bind_pure, List.foldlM_map]

end loops

end CheckedWords
