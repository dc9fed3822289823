import Mathlib.Tactic

/-! # Flushing queues in order

Queues `f q`, for the names `q` of a list `qs`, hold elements with keys. A flush up to a bound takes
the elements with keys below it out of the queues and leaves the others (`IsFlush`). Where each
queue is sorted, it is enough to take the least of the fronts again and again (`IsFlush.cons`) until
no front is below the bound (`IsFlush.nil`); each time there is one element less (`size_update`).
What is taken is what was below the bound, each element once (`IsFlush.perm`). -/

namespace KzGlobal.Lib.Merge

variable {ι α κ : Type*} [DecidableEq ι]

/-- What was taken from the queue `q`, in order. -/
def taken (q : ι) (out : List (ι × α)) : List α := (out.filter (·.1 = q)).map Prod.snd

theorem taken_cons (q q' : ι) (a : α) (out : List (ι × α)) :
    taken q ((q', a) :: out) = if q' = q then a :: taken q out else taken q out := by
  unfold taken
  by_cases h : q' = q
  · simp [h]
  · simp [h]

theorem mem_taken {e : ι × α} {out : List (ι × α)} (h : e ∈ out) : e.2 ∈ taken e.1 out :=
  List.mem_map_of_mem (List.mem_filter.mpr ⟨h, decide_eq_true rfl⟩)

theorem map_taken (q : ι) (out : List (ι × α)) :
    (taken q out).map (Prod.mk q) = out.filter (·.1 = q) := by
  unfold taken
  rw [List.map_map]
  have hid : ∀ e ∈ out.filter (·.1 = q), (Prod.mk q ∘ Prod.snd) e = id e := by
    intro e he
    have heq : e.1 = q := of_decide_eq_true (List.mem_filter.mp he).2
    exact Prod.ext heq.symm rfl
  rw [List.map_congr_left hid, List.map_id]

theorem perm_flatMap_filter : ∀ {qs : List ι}, qs.Nodup → ∀ {out : List (ι × α)},
    (∀ e ∈ out, e.1 ∈ qs) → out.Perm (qs.flatMap fun q => out.filter (·.1 = q))
  | [], _, out, hout => by
    have hnil : out = [] := List.eq_nil_iff_forall_not_mem.mpr fun e he => nomatch hout e he
    rw [hnil, List.flatMap_nil]
  | q :: qs, hqs, out, hout => by
    obtain ⟨hq, hnodup⟩ := List.nodup_cons.mp hqs
    -- what was taken from the other queues
    have hrest : ∀ e ∈ out.filter (fun e => !decide (e.1 = q)), e.1 ∈ qs := by
      intro e he
      obtain ⟨hmem, hne⟩ := List.mem_filter.mp he
      have hne' : e.1 ≠ q := by simpa using hne
      exact (List.mem_cons.mp (hout e hmem)).resolve_left hne'
    have hothers : ∀ q' ∈ qs,
        (out.filter fun e => !decide (e.1 = q)).filter (·.1 = q') = out.filter (·.1 = q') := by
      intro q' hq'
      rw [List.filter_filter]
      refine List.filter_congr fun e _ => ?_
      have hne : q' ≠ q := fun heq => hq (heq ▸ hq')
      by_cases heq : e.1 = q'
      · simp [heq, hne]
      · simp [heq]
    rw [List.flatMap_cons, ← List.flatMap_congr hothers]
    have hsplit := List.filter_append_perm (fun e => decide (e.1 = q)) out
    exact hsplit.symm.trans ((perm_flatMap_filter hnodup hrest).append_left _)

/-- How many elements the queues hold. -/
def size (qs : List ι) (f : ι → List α) : ℕ := (qs.map fun q => (f q).length).sum

/-- **The measure**: a queue without its front. -/
theorem size_update {qs : List ι} {f : ι → List α} {q : ι} {a : α} {rest : List α} (hq : q ∈ qs)
    (hf : f q = a :: rest) : size qs (Function.update f q rest) < size qs f := by
  refine List.sum_lt_sum _ _ (fun q' _ => ?_) ⟨q, hq, ?_⟩
  · by_cases h : q' = q
    · subst h
      rw [Function.update_self, hf, List.length_cons]
      omega
    · rw [Function.update_of_ne h]
  · rw [Function.update_self, hf, List.length_cons]
    omega

variable [LinearOrder κ] (key : α → κ) (bound : κ) (qs : List ι)

/-- **A flush** of the queues `f`, which leaves `f'` and takes `out`: in the order of the keys, and
from each queue what is below the bound, in its order. -/
structure IsFlush (f f' : ι → List α) (out : List (ι × α)) : Prop where
  sorted : out.Pairwise fun a b => key a.2 ≤ key b.2
  registered : ∀ e ∈ out, e.1 ∈ qs
  taken : ∀ q ∈ qs, taken q out = (f q).filter fun a => key a < bound
  left : ∀ q ∈ qs, f' q = (f q).filter fun a => ¬ key a < bound
  others : ∀ q ∉ qs, f' q = f q

/-- Each queue is in the order of the keys. -/
def Sorted (f : ι → List α) : Prop := ∀ q ∈ qs, (f q).Pairwise fun a b => key a ≤ key b

variable {key bound qs} {f f' : ι → List α} {out : List (ι × α)}

omit [DecidableEq ι] in
theorem Sorted.front_le (hs : Sorted key qs f) {q : ι} (hq : q ∈ qs) {a : α} {rest : List α}
    (hf : f q = a :: rest) : ∀ b ∈ f q, key a ≤ key b := by
  intro b hb
  have hsorted := hs q hq
  rw [hf, List.pairwise_cons] at hsorted
  rw [hf, List.mem_cons] at hb
  rcases hb with rfl | hb
  · exact le_rfl
  · exact hsorted.1 b hb

theorem Sorted.update (hs : Sorted key qs f) {q : ι} {a : α} {rest : List α}
    (hf : f q = a :: rest) : Sorted key qs (Function.update f q rest) := by
  intro q' hq'
  by_cases h : q' = q
  · subst h
    have hsorted := hs q' hq'
    rw [hf, List.pairwise_cons] at hsorted
    rw [Function.update_self]
    exact hsorted.2
  · rw [Function.update_of_ne h]
    exact hs q' hq'

/-- **The end**: no front is below the bound. -/
theorem IsFlush.nil (hs : Sorted key qs f)
    (hfront : ∀ q ∈ qs, ∀ a ∈ (f q).head?, ¬ key a < bound) : IsFlush key bound qs f f [] := by
  have hall : ∀ q ∈ qs, ∀ a ∈ f q, ¬ key a < bound := by
    intro q hq a ha
    obtain ⟨b, rest, hf⟩ := List.exists_cons_of_ne_nil (List.ne_nil_of_mem ha)
    have hb : ¬ key b < bound := hfront q hq b (by rw [hf]; rfl)
    have hba := hs.front_le hq hf a ha
    exact fun ha' => hb (hba.trans_lt ha')
  refine ⟨List.Pairwise.nil, nofun, fun q hq => ?_, fun q hq => ?_, fun _ _ => rfl⟩
  · symm
    exact List.filter_eq_nil_iff.mpr fun a ha => by simpa using hall q hq a ha
  · symm
    exact List.filter_eq_self.mpr fun a ha => by simpa using hall q hq a ha

theorem IsFlush.mem (h : IsFlush key bound qs f f' out) {e : ι × α} (he : e ∈ out) :
    e.2 ∈ f e.1 ∧ key e.2 < bound := by
  have hmem := mem_taken he
  rw [h.taken e.1 (h.registered e he), List.mem_filter, decide_eq_true_iff] at hmem
  exact hmem

theorem IsFlush.perm (h : IsFlush key bound qs f f' out) (hqs : qs.Nodup) :
    out.Perm (qs.flatMap fun q => ((f q).filter fun a => key a < bound).map (Prod.mk q)) := by
  have htaken : ∀ q ∈ qs, ((f q).filter fun a => key a < bound).map (Prod.mk q) =
      out.filter (·.1 = q) := by
    intro q hq
    rw [← h.taken q hq, map_taken]
  rw [List.flatMap_congr htaken]
  exact perm_flatMap_filter hqs h.registered

/-- **The step**: the least front is taken first. -/
theorem IsFlush.cons (hs : Sorted key qs f) {q : ι} {a : α} {rest : List α} (hq : q ∈ qs)
    (hf : f q = a :: rest) (ha : key a < bound)
    (hleast : ∀ q' ∈ qs, ∀ b ∈ (f q').head?, key b < bound → key a ≤ key b)
    (h : IsFlush key bound qs (Function.update f q rest) f' out) :
    IsFlush key bound qs f f' ((q, a) :: out) := by
  -- what follows was behind a front
  have hle : ∀ e ∈ out, key a ≤ key e.2 := by
    intro e he
    obtain ⟨hmem, hbound⟩ := h.mem he
    have hreg := h.registered e he
    have hmem' : e.2 ∈ f e.1 := by
      by_cases heq : e.1 = q
      · rw [heq, Function.update_self] at hmem
        rw [heq, hf]
        exact List.mem_cons_of_mem a hmem
      · rwa [Function.update_of_ne heq] at hmem
    obtain ⟨b, rest', hb⟩ := List.exists_cons_of_ne_nil (List.ne_nil_of_mem hmem')
    have hbe := hs.front_le hreg hb e.2 hmem'
    exact (hleast e.1 hreg b (by rw [hb]; rfl) (hbe.trans_lt hbound)).trans hbe
  refine ⟨List.pairwise_cons.mpr ⟨hle, h.sorted⟩, ?_, fun q' hq' => ?_, fun q' hq' => ?_,
    fun q' hq' => ?_⟩
  · intro e he
    rcases List.mem_cons.mp he with rfl | he
    · exact hq
    · exact h.registered e he
  · have htaken := h.taken q' hq'
    rw [taken_cons, htaken]
    by_cases heq : q = q'
    · subst heq
      rw [if_pos rfl, Function.update_self, hf, List.filter_cons, if_pos (decide_eq_true ha)]
    · rw [if_neg heq, Function.update_of_ne (Ne.symm heq)]
  · have hleft := h.left q' hq'
    by_cases heq : q' = q
    · subst heq
      rw [Function.update_self] at hleft
      rw [hleft, hf, List.filter_cons, if_neg (by simpa using ha)]
    · rwa [Function.update_of_ne heq] at hleft
  · have hne : q' ≠ q := fun heq => hq' (heq ▸ hq)
    rw [h.others q' hq', Function.update_of_ne hne]

end KzGlobal.Lib.Merge
