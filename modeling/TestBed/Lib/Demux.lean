import Mathlib.Algebra.BigOperators.Group.List.Basic
import Mathlib.Algebra.Ring.Int.Defs
import Mathlib.Data.List.Nodup

/-!
# Demultiplexing interleaved streams

Several streams of messages share a channel that keeps the order of each stream (`Interleaving`). A
receiver keeps one total for each key (`Totals`) and adds every message to the total of its key
(`add`, `addAll`). Whatever the interleaving, the total of a key is the sum of its messages
(`addAll_apply`), and streams with keys of their own do not disturb one another
(`addAll_interleaving`).
-/

namespace Demux

universe u v w

variable {α : Type u} {β : Type v} {κ : Type w}

/-- `zs` takes its elements from the streams `xss`, always the next one of some stream, until all are
used up. -/
inductive Interleaving : List (List α) → List α → Prop
  | done {xss : List (List α)} (h : ∀ xs ∈ xss, xs = []) : Interleaving xss []
  | next (pre post : List (List α)) {xs zs : List α} (x : α)
      (h : Interleaving (pre ++ xs :: post) zs) : Interleaving (pre ++ (x :: xs) :: post) (x :: zs)

theorem Interleaving.perm {xss : List (List α)} {zs : List α} (h : Interleaving xss zs) :
    zs.Perm xss.flatten := by
  induction h with
  | done h => rw [List.flatten_eq_nil_iff.mpr h]
  | next pre post x _ ih =>
    refine (ih.cons x).trans ?_
    simp only [List.flatten_append, List.flatten_cons, List.cons_append]
    exact List.perm_middle.symm

theorem interleaving_flatten (xss : List (List α)) : Interleaving xss xss.flatten := by
  induction xss with
  | nil => exact .done (by simp)
  | cons xs xss ih =>
    induction xs with
    | nil =>
      suffices h : ∀ {yss : List (List α)} {zs : List α}, Interleaving yss zs →
          Interleaving ([] :: yss) zs by
        simpa using h ih
      intro yss zs h
      induction h with
      | done h => exact .done (by simpa using h)
      | next pre post x _ ih => exact .next ([] :: pre) post x ih
    | cons x xs ih' => exact .next [] xss x ih'

/-- The messages of one stream are those with its key. -/
theorem filter_flatMap_key [DecidableEq κ] {as : List α} {f : α → List β} {key : α → κ}
    {keyOf : β → κ} (hf : ∀ a ∈ as, ∀ b ∈ f a, keyOf b = key a) (hkeys : (as.map key).Nodup)
    {a : α} (ha : a ∈ as) : (as.flatMap f).filter (keyOf · = key a) = f a := by
  induction as with
  | nil => cases ha
  | cons c as ih =>
    rw [List.map_cons, List.nodup_cons] at hkeys
    rw [List.flatMap_cons, List.filter_append]
    have hc := hf c (by simp)
    have has : ∀ a ∈ as, ∀ b ∈ f a, keyOf b = key a := fun a ha => hf a (List.mem_cons_of_mem c ha)
    rcases List.mem_cons.mp ha with rfl | ha
    · have hrest : (as.flatMap f).filter (keyOf · = key a) = [] := by
        rw [List.filter_eq_nil_iff]
        intro b hb
        obtain ⟨a', ha', hb⟩ := List.mem_flatMap.mp hb
        have hne : key a' ≠ key a := fun h => hkeys.1 (h ▸ List.mem_map_of_mem ha')
        simpa [has a' ha' b hb] using hne
      rw [hrest, List.append_nil]
      exact List.filter_eq_self.mpr fun b hb => by simp [hc b hb]
    · have hfirst : (f c).filter (keyOf · = key a) = [] := by
        rw [List.filter_eq_nil_iff]
        intro b hb
        have hne : key c ≠ key a := fun h => hkeys.1 (h ▸ List.mem_map_of_mem ha)
        simpa [hc b hb] using hne
      rw [hfirst, List.nil_append, ih has hkeys.2 ha]

/-! ## Totals by key -/

/-- A total for each key that has occurred. -/
abbrev Totals (κ : Type w) : Type w := κ → Option Int

variable [DecidableEq κ]

def add (t : Totals κ) (k : κ) (n : Int) : Totals κ :=
  fun i => if i = k then some ((t k).getD 0 + n) else t i

def addAll (t : Totals κ) (ms : List (κ × Int)) : Totals κ :=
  ms.foldl (fun t m => add t m.1 m.2) t

@[simp] theorem addAll_nil (t : Totals κ) : addAll t [] = t := rfl

@[simp] theorem addAll_cons (t : Totals κ) (m : κ × Int) (ms : List (κ × Int)) :
    addAll t (m :: ms) = addAll (add t m.1 m.2) ms := rfl

theorem addAll_append (t : Totals κ) (ms ms' : List (κ × Int)) :
    addAll t (ms ++ ms') = addAll (addAll t ms) ms' := by
  simp [addAll, List.foldl_append]

theorem addAll_apply (t : Totals κ) (ms : List (κ × Int)) (k : κ) :
    addAll t ms k =
      if ms.filter (·.1 = k) = [] then t k
      else some ((t k).getD 0 + ((ms.filter (·.1 = k)).map (·.2)).sum) := by
  induction ms generalizing t with
  | nil => simp
  | cons m ms ih =>
    rw [addAll_cons, ih]
    by_cases hk : m.1 = k
    · subst hk
      by_cases hrest : ms.filter (fun m' => m'.1 = m.1) = []
      · simp [add, hrest]
      · simp [add, hrest]
        omega
    · have hk' : k ≠ m.1 := fun h => hk h.symm
      have hfilter : (m :: ms).filter (·.1 = k) = ms.filter (·.1 = k) := by simp [hk]
      rw [hfilter]
      simp only [add, if_neg hk']

/-- A key that has occurred has a total. -/
theorem addAll_of_mem (t : Totals κ) {ms : List (κ × Int)} {m : κ × Int} (h : m ∈ ms) :
    ∃ n, addAll t ms m.1 = some n := by
  have hne : ms.filter (·.1 = m.1) ≠ [] :=
    List.ne_nil_of_mem (List.mem_filter.mpr ⟨h, by simp⟩)
  rw [addAll_apply, if_neg hne]
  exact ⟨_, rfl⟩

theorem add_zero_of_some {t : Totals κ} {k : κ} {n : Int} (h : t k = some n) : add t k 0 = t := by
  funext i
  unfold add
  split
  · next hi => rw [hi, h, Option.getD_some, Int.add_zero]
  · rfl

/-- Messages that all count `w`. -/
theorem addAll_const {ms : List (κ × Int)} {w : Int} (hw : ∀ m ∈ ms, m.2 = w) (k : κ) :
    addAll (fun _ => none) ms k =
      if ms.countP (·.1 = k) = 0 then none else some (w * ms.countP (·.1 = k)) := by
  have hsum : ((ms.filter (·.1 = k)).map (·.2)).sum = w * ms.countP (·.1 = k) := by
    have hmap : (ms.filter (·.1 = k)).map (·.2) = List.replicate (ms.countP (·.1 = k)) w := by
      rw [List.countP_eq_length_filter, List.eq_replicate_iff]
      refine ⟨List.length_map _, fun x hx => ?_⟩
      obtain ⟨m, hm, rfl⟩ := List.mem_map.mp hx
      exact hw m (List.mem_of_mem_filter hm)
    rw [hmap, List.sum_replicate, nsmul_eq_mul, Int.mul_comm]
  rw [addAll_apply, hsum, Option.getD_none, Int.zero_add]
  simp only [List.countP_eq_length_filter, List.length_eq_zero_iff]

/-- Streams whose messages have the place of their stream as their key. -/
theorem filter_flatMap_place {as : List α} {f : α → List β} {keyOf : β → Int}
    (hf : ∀ (k : Nat) a, as[k]? = some a → ∀ b ∈ f a, keyOf b = k) {k : Nat} {a : α}
    (ha : as[k]? = some a) : (as.flatMap f).filter (keyOf · = k) = f a := by
  have hplace : as.flatMap f = as.zipIdx.flatMap fun p => f p.1 := by
    conv_lhs => rw [← List.zipIdx_map_fst 0 as]
    rw [List.flatMap_map]
  rw [hplace]
  have hkeys : (as.zipIdx.map fun p => (p.2 : Int)).Nodup := by
    have hmap : as.zipIdx.map (fun p => (p.2 : Int)) = (as.zipIdx.map (·.2)).map Nat.cast := by
      rw [List.map_map]
      rfl
    rw [hmap, List.zipIdx_map_snd]
    exact (List.nodup_range' (s := 0)).map fun _ _ h => Int.ofNat.inj h
  have hmem : (a, k) ∈ as.zipIdx := List.mem_zipIdx_iff_getElem?.mpr ha
  refine filter_flatMap_key ?_ hkeys hmem
  rintro ⟨b, j⟩ hb c hc
  exact hf j b (List.mem_zipIdx_iff_getElem?.mp hb) c hc

/-- **Streams with keys of their own.** After any interleaving of the streams `f a`, all of whose
messages have the key of `a`, the total of that key is the sum of the stream. -/
theorem addAll_interleaving {as : List α} {f : α → List β} {g : β → κ × Int} {key : α → κ}
    (hf : ∀ a ∈ as, ∀ b ∈ f a, (g b).1 = key a) (hkeys : (as.map key).Nodup)
    {zs : List β} (hz : Interleaving (as.map f) zs) {a : α} (ha : a ∈ as)
    (hne : f a ≠ []) (t : Totals κ) :
    addAll t (zs.map g) (key a) =
      some ((t (key a)).getD 0 + ((f a).map fun b => (g b).2).sum) := by
  have hperm : ((zs.map g).filter (·.1 = key a)).Perm ((f a).map g) := by
    rw [List.filter_map]
    have h := hz.perm.filter fun b => (g b).1 = key a
    rw [← List.flatMap_def, filter_flatMap_key hf hkeys ha] at h
    exact h.map g
  have hzne : (zs.map g).filter (·.1 = key a) ≠ [] := by
    intro h
    exact hne (List.map_eq_nil_iff.mp (List.nil_perm.mp (h ▸ hperm)))
  rw [addAll_apply, if_neg hzne, (hperm.map (·.2)).sum_eq, List.map_map]
  rfl

end Demux
