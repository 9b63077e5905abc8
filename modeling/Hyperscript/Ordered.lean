/-! Lists without repetition, in the order in which their elements first came. Collecting elements
one after the other gives them in this order, each once; so collected lists are those from which
later repetitions have been dropped. -/
namespace Hyperscript.Ordered

variable {α : Type} [BEq α]

def insert (xs : List α) (x : α) : List α := if xs.contains x then xs else xs ++ [x]

def insertAll (xs ys : List α) : List α := ys.foldl insert xs

def ofList (xs : List α) : List α := insertAll [] xs

theorem insertAll_append (xs ys zs : List α) :
    insertAll xs (ys ++ zs) = insertAll (insertAll xs ys) zs :=
  List.foldl_append

theorem prefix_insertAll (xs ys : List α) : xs <+: insertAll xs ys := by
  induction ys generalizing xs with
  | nil => exact List.prefix_rfl
  | cons y rest ih =>
    refine List.IsPrefix.trans ?_ (ih (insert xs y))
    unfold insert
    split
    · exact List.prefix_rfl
    · exact List.prefix_append xs [y]

theorem head?_eraseDups (xs : List α) : xs.eraseDups.head? = xs.head? := by
  cases xs with
  | nil => rfl
  | cons x rest => rw [List.eraseDups_cons, List.head?_cons, List.head?_cons]

variable [LawfulBEq α]

@[simp] theorem mem_insert {xs : List α} {x y : α} : y ∈ insert xs x ↔ y ∈ xs ∨ y = x := by
  unfold insert
  split
  next known =>
    have member : x ∈ xs := by simpa using known
    constructor
    · exact .inl
    · rintro (inside | rfl)
      · exact inside
      · exact member
  next => simp

@[simp] theorem mem_insertAll {xs ys : List α} {y : α} :
    y ∈ insertAll xs ys ↔ y ∈ xs ∨ y ∈ ys := by
  induction ys generalizing xs with
  | nil => simp [insertAll]
  | cons x rest ih =>
    have step : insertAll xs (x :: rest) = insertAll (insert xs x) rest := rfl
    rw [step, ih, mem_insert, List.mem_cons, or_assoc]

theorem nodup_insert {xs : List α} (nodup : xs.Nodup) (x : α) : (insert xs x).Nodup := by
  unfold insert
  split
  next => exact nodup
  next fresh =>
    have absent : x ∉ xs := by simpa using fresh
    have single : [x].Nodup := List.nodup_cons.mpr ⟨List.not_mem_nil, List.nodup_nil⟩
    refine List.nodup_append.mpr ⟨nodup, single, ?_⟩
    intro y member z last
    obtain rfl := List.mem_singleton.mp last
    exact fun same => absent (same ▸ member)

theorem nodup_insertAll {xs : List α} (nodup : xs.Nodup) (ys : List α) :
    (insertAll xs ys).Nodup := by
  induction ys generalizing xs with
  | nil => exact nodup
  | cons x rest ih => exact ih (nodup_insert nodup x)

theorem insert_eraseDups (xs : List α) (x : α) : insert xs.eraseDups x = (xs ++ [x]).eraseDups := by
  rw [List.eraseDups_append]
  by_cases known : x ∈ xs
  · simp [insert, List.removeAll, known]
  · simp [insert, List.removeAll, known, List.eraseDups_cons]

theorem insertAll_eraseDups (xs ys : List α) :
    insertAll xs.eraseDups ys = (xs ++ ys).eraseDups := by
  induction ys generalizing xs with
  | nil => rw [List.append_nil, insertAll, List.foldl_nil]
  | cons y rest ih =>
    have step := ih (xs ++ [y])
    rw [← insert_eraseDups, List.append_assoc] at step
    exact step

theorem insertAll_insert (xs ys : List α) (y : α) :
    insertAll xs (insert ys y) = insert (insertAll xs ys) y := by
  by_cases known : y ∈ ys
  · have inside : y ∈ insertAll xs ys := mem_insertAll.mpr (.inr known)
    simp [insert, known, inside]
  · simp [insert, known, insertAll]

/-- What was collected elsewhere comes in as if it were collected here. -/
theorem insertAll_insertAll (xs ys zs : List α) :
    insertAll xs (insertAll ys zs) = insertAll (insertAll xs ys) zs := by
  induction zs generalizing ys with
  | nil => rfl
  | cons z rest ih =>
    have step := ih (insert ys z)
    rw [insertAll_insert] at step
    exact step

theorem ofList_eq_eraseDups (xs : List α) : ofList xs = xs.eraseDups := insertAll_eraseDups [] xs

theorem nodup_eraseDups (xs : List α) : xs.eraseDups.Nodup := by
  rw [← ofList_eq_eraseDups]
  exact nodup_insertAll List.nodup_nil xs

/-- Without repetitions, the elements stand in the order in which they first came. -/
theorem pairwise_idxOf_eraseDups (xs : List α) :
    xs.eraseDups.Pairwise fun x y => xs.idxOf x < xs.idxOf y := by
  -- A list is taken apart at its last element, which comes last here too.
  obtain ⟨reversed, rfl⟩ : ∃ reversed, xs = List.reverse reversed := ⟨xs.reverse, by simp⟩
  induction reversed with
  | nil => exact .nil
  | cons x reversed ih =>
    rw [List.reverse_cons]
    generalize reversed.reverse = xs at ih
    have same {y : α} (member : y ∈ xs.eraseDups) : (xs ++ [x]).idxOf y = xs.idxOf y := by
      rw [List.idxOf_append, if_pos (List.mem_eraseDups.mp member)]
    have earlier : xs.eraseDups.Pairwise fun y z => (xs ++ [x]).idxOf y < (xs ++ [x]).idxOf z := by
      refine ih.imp_of_mem fun first second before => ?_
      rwa [same first, same second]
    rw [← insert_eraseDups, insert]
    split
    next => exact earlier
    next fresh =>
      refine List.pairwise_append.mpr ⟨earlier, List.pairwise_singleton _ _, ?_⟩
      intro y member z last
      obtain rfl := List.mem_singleton.mp last
      have absent : z ∉ xs := by simpa using fresh
      rw [same member, List.idxOf_append, if_neg absent]
      exact Nat.lt_add_left _ (List.idxOf_lt_length_of_mem (List.mem_eraseDups.mp member))

end Hyperscript.Ordered
