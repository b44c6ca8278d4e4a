import Mathlib.Data.List.Nodup
import Mathlib.Logic.Function.Basic
import Scaffold.Proofs.Text.Rows

/-! Several needles replaced in turn, and all of them at once. A text is cut into pieces, which are
the occurrences of the needles and the characters between them. While the values put in make up no
further occurrence, each pass finds the pieces that are its own and nothing else; so the passes
come to one substitution on the pieces of the text at the start. -/

namespace Scaffold.Text

variable {n m t front back : Text} {needles : List Text}
  {table : List (Text × Text)}

/-- No occurrence of `n` has a character in common with one of `m`, unless it is the same one. -/
def Apart (n m : Text) : Prop :=
  ∀ part ∈ m.tails, part ≠ [] → n <+: part ∨ part <+: n → part = m ∧ n = m

instance (n m : Text) : Decidable (Apart n m) :=
  inferInstanceAs (Decidable
    (∀ part ∈ m.tails, part ≠ [] → n <+: part ∨ part <+: n → part = m ∧ n = m))

theorem Apart.after?_eq_none (apart : Apart n m) {part : Text} (inside : part <:+ m)
    (more : part ≠ []) (other : part = m → n ≠ m) (back : Text) :
    after? n (part ++ back) = none := by
  rw [← Option.not_isSome_iff_eq_none, isSome_after?_iff]
  intro here
  have either := List.prefix_or_prefix_of_prefix here (List.prefix_append part back)
  obtain ⟨whole, same⟩ := apart part (List.mem_tails _ _ |>.2 inside) more either
  exact other whole same

/-- Needles that can be told from each other wherever they stand. -/
structure Discernible (needles : List Text) : Prop where
  filled : [] ∉ needles
  distinct : needles.Nodup
  apart : ∀ n ∈ needles, ∀ m ∈ needles, Apart n m

theorem Discernible.ne_nil (h : Discernible needles) (mem : n ∈ needles) : n ≠ [] := by
  rintro rfl
  exact h.filled mem

theorem Discernible.not_mem_before {before behind : List Text}
    (h : Discernible (before ++ n :: behind)) : n ∉ before := by
  have distinct := h.distinct
  rw [List.nodup_middle, List.nodup_cons, List.mem_append, not_or] at distinct
  exact distinct.1.1

theorem Apart.stopsAt (apart : Apart m n) (back : Text) : StopsAt n (m ++ back) := by
  intro part inside more begins
  have within := (List.mem_tails _ _).1 inside
  have either := List.prefix_or_prefix_of_prefix (List.prefix_append m back) begins
  have suffix := within.trans (List.tail_suffix n)
  obtain ⟨whole, -⟩ := apart part ((List.mem_tails _ _).2 suffix) more either
  have shorter := within.length_le
  have long := List.length_pos_iff.2 more
  rw [whole, List.length_tail] at shorter
  rw [whole] at long
  omega

theorem replaceAll_around (filled : n ≠ []) (apart : Apart n m) (apart' : Apart m n)
    (value front back : Text) :
    replaceAll n value (front ++ (m ++ back)) = replaceAll n value front ++
      ((if n = m then value else m) ++ replaceAll n value back) := by
  rw [replaceAll_append_of_stopsAt filled (apart'.stopsAt back)]
  split_ifs with same
  · rw [← same, replaceAll_needle filled]
  · rw [replaceAll_append fun part inside more =>
      apart.after?_eq_none inside more (fun _ => same) back]

theorem occurrences_le_append (n front back : Text) :
    occurrences n back ≤ occurrences n (front ++ back) := by
  induction front with
  | nil => rfl
  | cons c front ih =>
    rw [List.cons_append, occurrences_cons]
    omega

theorem occurrences_append_self (filled : n ≠ []) (back : Text) :
    occurrences n (n ++ back) = occurrences n (n.tail ++ back) + 1 := by
  have here := after?_append n back
  obtain ⟨c, inner, eq⟩ := List.exists_cons_of_ne_nil filled
  have split : n ++ back = c :: (n.tail ++ back) := by simp [eq]
  rw [split] at here ⊢
  rw [occurrences_cons, if_pos (by simp [here])]

theorem occurrences_append_eq_iff :
    occurrences n (front ++ back) = occurrences n back ↔
      ∀ part, part <:+ front → part ≠ [] → after? n (part ++ back) = none := by
  induction front with
  | nil =>
    refine iff_of_true rfl fun part inside more => ?_
    exact absurd (List.suffix_nil.1 inside) more
  | cons c front ih =>
    have least := occurrences_le_append n front back
    rw [List.cons_append, occurrences_cons]
    by_cases here : (after? n (c :: (front ++ back))).isSome
    · rw [if_pos here]
      refine iff_of_false (by omega) fun none_ => ?_
      have first := none_ (c :: front) (List.suffix_refl _) (by simp)
      rw [List.cons_append] at first
      simp [first] at here
    · rw [if_neg here, Nat.add_zero, ih]
      refine ⟨fun rest part inside more => ?_,
        fun all part inside => all part (inside.trans (List.suffix_cons c front))⟩
      rcases List.suffix_cons_iff.1 inside with rfl | inside
      · simpa using here
      · exact rest part inside more

/-- A character by itself, or an occurrence of a needle. -/
inductive Piece where
  | plain (c : Char)
  | needle (n : Text)
  deriving DecidableEq

namespace Piece

/-- What stands for a piece, where `f` says so for the needles. -/
def text (f : Text → Text) : Piece → Text
  | plain c => [c]
  | needle n => f n

end Piece

def assembled (f : Text → Text) (ps : List Piece) : Text :=
  ps.flatMap (Piece.text f)

@[simp] theorem assembled_cons (f : Text → Text) (piece : Piece) (ps : List Piece) :
    assembled f (piece :: ps) = piece.text f ++ assembled f ps := rfl

/-- Cuts a text from the left and without overlap; the counter passes over the characters of an
occurrence. -/
def piecesFrom (needles : List Text) : (passed : Nat) → Text → List Piece
  | _, [] => []
  | passed + 1, _ :: t => piecesFrom needles passed t
  | 0, c :: t =>
    match needles.find? fun n => (after? n (c :: t)).isSome with
    | some n => .needle n :: piecesFrom needles (n.length - 1) t
    | none => .plain c :: piecesFrom needles 0 t

def pieces (needles : List Text) (t : Text) : List Piece :=
  piecesFrom needles 0 t

/-- The text falls into these pieces, read from the left. -/
inductive Cut (needles : List Text) : Text → List Piece → Prop where
  | nil : Cut needles [] []
  | plain {c : Char} {t : Text} {ps : List Piece} (none_ : ∀ n ∈ needles, ¬ n <+: c :: t)
      (rest : Cut needles t ps) : Cut needles (c :: t) (.plain c :: ps)
  | needle {n t : Text} {ps : List Piece} (mem : n ∈ needles) (rest : Cut needles t ps) :
      Cut needles (n ++ t) (.needle n :: ps)

theorem cut_piecesFrom (filled : [] ∉ needles) (passed : Nat) (t : Text) :
    Cut needles (t.drop passed) (piecesFrom needles passed t) := by
  -- `passed` counts the characters that still belong to the last needle found
  induction t generalizing passed with
  | nil =>
    rw [List.drop_nil]
    cases passed <;> exact .nil
  | cons c t ih =>
    cases passed with
    | succ passed => exact ih passed
    | zero =>
      rw [piecesFrom, List.drop_zero]
      split
      · next n found =>
        have mem := List.mem_of_find?_eq_some found
        have begins : (after? n (c :: t)).isSome :=
          List.find?_some (p := fun n => (after? n (c :: t)).isSome) found
        obtain ⟨rest, split⟩ := isSome_after?_iff.1 begins
        cases n with
        | nil => exact absurd mem filled
        | cons a n =>
          rw [List.cons_append, List.cons.injEq] at split
          obtain ⟨rfl, rfl⟩ := split
          have later := ih n.length
          rw [List.drop_left] at later
          exact .needle mem later
      · next missed =>
        refine .plain (fun n mem begins => ?_) (ih 0)
        have nowhere := List.find?_eq_none.1 missed n mem
        exact nowhere (isSome_after?_iff.2 begins)

theorem cut_pieces (filled : [] ∉ needles) (t : Text) : Cut needles t (pieces needles t) :=
  cut_piecesFrom filled 0 t

namespace Cut

variable {ps : List Piece}

theorem assembled_id (h : Cut needles t ps) : assembled id ps = t := by
  induction h with
  | nil => rfl
  | plain _ _ ih => exact congrArg (_ :: ·) ih
  | needle _ _ ih => exact congrArg (_ ++ ·) ih

theorem occurrences_eq (h : Cut needles t ps) (sound : Discernible needles) (mem : n ∈ needles) :
    occurrences n t = ps.count (.needle n) := by
  induction h with
  | nil => exact occurrences_nil (sound.ne_nil mem)
  | plain none_ rest ih =>
    rw [occurrences_cons, if_neg fun here => none_ n mem (isSome_after?_iff.1 here), ih,
      List.count_cons_of_ne (by simp), Nat.add_zero]
  | @needle m t ps listed rest ih =>
    have apart := sound.apart n mem m listed
    by_cases same : n = m
    · subst same
      have filled := sound.ne_nil mem
      -- behind its first character there is no other occurrence within a needle
      have beyond : occurrences n (n.tail ++ t) = occurrences n t := by
        refine occurrences_append_eq_iff.2 fun part inside more => ?_
        refine apart.after?_eq_none (inside.trans (List.tail_suffix n)) more (fun whole => ?_) t
        have shorter := (whole ▸ inside).length_le
        have long := List.length_pos_iff.2 filled
        rw [List.length_tail] at shorter
        omega
      rw [List.count_cons_self, ← ih, ← beyond, occurrences_append_self filled]
    · rw [List.count_cons_of_ne (by simpa using Ne.symm same), ← ih]
      exact occurrences_append_eq_iff.2 fun part inside more =>
        apart.after?_eq_none inside more (fun _ => same) t

end Cut

theorem count_le_occurrences {f : Text → Text} (filled : n ≠ []) (kept : f n = n)
    (ps : List Piece) : ps.count (.needle n) ≤ occurrences n (assembled f ps) := by
  induction ps with
  | nil => simp
  | cons piece ps ih =>
    rw [assembled_cons]
    by_cases own : piece = .needle n
    · subst own
      have least := occurrences_le_append n n.tail (assembled f ps)
      rw [List.count_cons_self, Piece.text, kept, occurrences_append_self filled]
      omega
    · rw [List.count_cons_of_ne own]
      exact ih.trans (occurrences_le_append n _ _)

theorem replaceAll_assembled {f : Text → Text} (filled : n ≠ []) (kept : f n = n)
    {ps : List Piece} (only : occurrences n (assembled f ps) = ps.count (.needle n))
    (value : Text) :
    replaceAll n value (assembled f ps) = assembled (Function.update f n value) ps := by
  induction ps with
  | nil => rfl
  | cons piece ps ih =>
    have least := count_le_occurrences filled kept ps
    rw [assembled_cons] at only
    by_cases own : piece = .needle n
    -- no room is left for an occurrence beyond the pieces, neither in the rest nor over the joint
    · subst own
      have beyond := occurrences_le_append n n.tail (assembled f ps)
      have rest : occurrences n (assembled f ps) = ps.count (.needle n) := by
        rw [List.count_cons_self, Piece.text, kept, occurrences_append_self filled] at only
        omega
      rw [assembled_cons, assembled_cons, Piece.text, Piece.text, kept, Function.update_self,
        replaceAll_needle filled, ih rest]
    · rw [List.count_cons_of_ne own] at only
      have more := occurrences_le_append n (piece.text f) (assembled f ps)
      have none_ := occurrences_append_eq_iff.1 (only.trans (by omega))
      have same : piece.text (Function.update f n value) = piece.text f := by
        cases piece with
        | plain c => rfl
        | needle m =>
          have other : m ≠ n := fun eq => own (congrArg _ eq)
          exact Function.update_of_ne other _ _
      rw [assembled_cons, assembled_cons, same, replaceAll_append none_, ih (by omega)]

/-- The needles of a table with their values, one pass for each. -/
def replaceInTurn (table : List (Text × Text)) (t : Text) : Text :=
  table.foldl (fun t entry => replaceAll entry.1 entry.2 t) t

theorem replaceInTurn_cons (n value : Text) (table : List (Text × Text)) (t : Text) :
    replaceInTurn ((n, value) :: table) t = replaceInTurn table (replaceAll n value t) := rfl

theorem replaceInTurn_append (table more : List (Text × Text)) (t : Text) :
    replaceInTurn (table ++ more) t = replaceInTurn more (replaceInTurn table t) :=
  List.foldl_append

theorem replaceInTurn_around (filled : [] ∉ table.map Prod.fst)
    (apart : ∀ n ∈ table.map Prod.fst, n ≠ m ∧ Apart n m ∧ Apart m n) (front back : Text) :
    replaceInTurn table (front ++ (m ++ back)) =
      replaceInTurn table front ++ (m ++ replaceInTurn table back) := by
  induction table generalizing front back with
  | nil => rfl
  | cons entry table ih =>
    obtain ⟨n, value⟩ := entry
    rw [List.map_cons, List.mem_cons, not_or] at filled
    rw [List.map_cons, List.forall_mem_cons] at apart
    obtain ⟨⟨other, apart₁, apart₂⟩, apart⟩ := apart
    rw [replaceInTurn_cons, replaceInTurn_cons, replaceInTurn_cons,
      replaceAll_around (Ne.symm filled.1) apart₁ apart₂, if_neg other, ih filled.2 apart]

theorem replaceInTurn_needle {before behind : List (Text × Text)} {value : Text}
    (sound : Discernible ((before ++ (n, value) :: behind).map Prod.fst)) (front back : Text) :
    replaceInTurn (before ++ (n, value) :: behind) (front ++ (n ++ back)) =
      replaceInTurn behind (replaceInTurn (before ++ [(n, value)]) front ++
        (value ++ replaceInTurn (before ++ [(n, value)]) back)) := by
  rw [List.map_append, List.map_cons] at sound
  have listed : n ∈ before.map Prod.fst ++ n :: behind.map Prod.fst := by simp
  have earlier {m : Text} (mem : m ∈ before.map Prod.fst) :
      m ∈ before.map Prod.fst ++ n :: behind.map Prod.fst := List.mem_append_left _ mem
  have others : ∀ m ∈ before.map Prod.fst, m ≠ n ∧ Apart m n ∧ Apart n m := by
    intro m mem
    exact ⟨ne_of_mem_of_not_mem mem sound.not_mem_before, sound.apart m (earlier mem) n listed,
      sound.apart n listed m (earlier mem)⟩
  -- the passes before the needle's own go around it, and its own turns it into the value
  have around := replaceAll_around (sound.ne_nil listed) (sound.apart n listed n listed)
    (sound.apart n listed n listed) value
  simp only [replaceInTurn_append, replaceInTurn_cons,
    replaceInTurn_around (fun none_ => sound.filled (earlier none_)) others, around, if_pos]
  rfl

theorem replaceInTurn_eq_self (absent : ∀ n ∈ table.map Prod.fst, ¬ n <:+: t) :
    replaceInTurn table t = t := by
  induction table with
  | nil => rfl
  | cons entry table ih =>
    rw [List.map_cons, List.forall_mem_cons] at absent
    rw [replaceInTurn, List.foldl_cons, replaceAll_eq_self absent.1]
    exact ih absent.2

/-- What stands around a text has no part in the occurrences of the needles. -/
def Frames (needles : List Text) (front back : Text) : Prop :=
  ∀ n ∈ needles, n ≠ [] ∧ n.head?.all (· ∉ front) ∧ StopsAt n back ∧ ¬ n <:+: back

instance (needles : List Text) (front back : Text) : Decidable (Frames needles front back) :=
  inferInstanceAs (Decidable (∀ n ∈ needles,
    n ≠ [] ∧ n.head?.all (· ∉ front) ∧ StopsAt n back ∧ ¬ n <:+: back))

theorem replaceInTurn_framed (frames : Frames (table.map Prod.fst) front back) (t : Text) :
    replaceInTurn table (front ++ (t ++ back)) = front ++ (replaceInTurn table t ++ back) := by
  induction table generalizing t with
  | nil => rfl
  | cons entry table ih =>
    obtain ⟨n, value⟩ := entry
    rw [List.map_cons, Frames, List.forall_mem_cons] at frames
    obtain ⟨⟨filled, first, stops, free⟩, frames⟩ := frames
    have begins := List.head?_eq_some_head filled
    rw [begins, Option.all_some, decide_eq_true_iff] at first
    have pass : replaceAll n value (front ++ (t ++ back)) =
        front ++ (replaceAll n value t ++ back) := by
      rw [replaceAll_append_of_not_mem begins first, replaceAll_append_of_stopsAt filled stops,
        replaceAll_eq_self free]
    rw [replaceInTurn, List.foldl_cons, pass]
    exact ih frames (replaceAll n value t)

def valueIn (table : List (Text × Text)) (n : Text) : Text :=
  (table.lookup n).getD n

/-- Each needle of the text gives way to its value, and nothing is looked through again. -/
def replaceAtOnce (table : List (Text × Text)) (t : Text) : Text :=
  assembled (valueIn table) (pieces (table.map Prod.fst) t)

/-- In its turn each needle occurs as often as in the text at the start. -/
def Undisturbed (table : List (Text × Text)) (t : Text) : Prop :=
  ∀ (i : Nat) (inside : i < table.length),
    occurrences table[i].1 (replaceInTurn (table.take i) t) = occurrences table[i].1 t

instance (table : List (Text × Text)) (t : Text) : Decidable (Undisturbed table t) :=
  inferInstanceAs (Decidable (∀ (i : Nat) (inside : i < table.length),
    occurrences table[i].1 (replaceInTurn (table.take i) t) = occurrences table[i].1 t))

theorem lookup_of_not_mem (absent : n ∉ table.map Prod.fst) : table.lookup n = none := by
  refine List.lookup_eq_none_iff.2 fun entry mem => ?_
  rw [bne_iff_ne]
  rintro rfl
  exact absent (List.mem_map_of_mem mem)

theorem valueIn_of_not_mem (absent : n ∉ table.map Prod.fst) : valueIn table n = n := by
  rw [valueIn, lookup_of_not_mem absent, Option.getD_none]

theorem valueIn_concat (absent : n ∉ table.map Prod.fst) (value : Text) :
    valueIn (table ++ [(n, value)]) = Function.update (valueIn table) n value := by
  funext m
  have split : (table ++ [(n, value)]).lookup m =
      (table.lookup m).or ([(n, value)].lookup m) := List.lookup_append
  rw [valueIn, split, Function.update_apply]
  split_ifs with same
  · subst same
    rw [lookup_of_not_mem absent]
    simp
  · have other : [(n, value)].lookup m = none := by
      simp [List.lookup_cons, beq_false_of_ne same]
    rw [other, Option.or_none, valueIn]

theorem replaceInTurn_eq (sound : Discernible (table.map Prod.fst)) (calm : Undisturbed table t) :
    replaceInTurn table t = replaceAtOnce table t := by
  have cut := cut_pieces sound.filled t
  -- what the passes done so far have made of the pieces
  have passes : ∀ i ≤ table.length, replaceInTurn (table.take i) t =
      assembled (valueIn (table.take i)) (pieces (table.map Prod.fst) t) := by
    intro i
    induction i with
    | zero =>
      intro _
      exact cut.assembled_id.symm
    | succ i ih =>
      intro inside
      have mem : table[i].1 ∈ table.map Prod.fst := List.mem_map_of_mem (List.getElem_mem inside)
      have absent : table[i].1 ∉ (table.take i).map Prod.fst := by
        have split : table = table.take i ++ table[i] :: table.drop (i + 1) := by
          rw [List.getElem_cons_drop, List.take_append_drop]
        have parted := sound
        rw [split, List.map_append, List.map_cons] at parted
        exact parted.not_mem_before
      have only := calm i inside
      rw [ih (by omega), cut.occurrences_eq sound mem] at only
      have pass := replaceAll_assembled (sound.ne_nil mem) (valueIn_of_not_mem absent) only
        table[i].2
      rw [List.take_succ_eq_append_getElem inside, valueIn_concat absent, ← pass, replaceInTurn,
        List.foldl_concat, ← ih (by omega), replaceInTurn]
  have whole := passes table.length le_rfl
  rwa [List.take_length] at whole

end Scaffold.Text
