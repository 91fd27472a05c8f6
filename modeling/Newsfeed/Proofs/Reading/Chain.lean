import Mathlib.Data.List.Basic

/-!
Readers that take something from the front of a list of tokens, and chains of operands with
operators of one level between them, which group to the left.
-/

namespace Newsfeed.Reading

/-- Reads something from the front of the tokens. -/
abbrev Reader (τ α : Type) := List τ → Option (α × List τ)

section Chains

variable {τ α : Type}

/-- Goes on from what has been read for as long as there is a further step, at most `n` times. An
operator without an operand is left unread. -/
def chainFrom (step : α → Reader τ α) : Nat → α → Reader τ α
  | 0, a, ts => some (a, ts)
  | n + 1, a, ts =>
    match step a ts with
    | some (b, rest) => chainFrom step n b rest
    | none => some (a, ts)

/-- An operand with steps after it, each of which takes a token at least. -/
def chain (operand : Reader τ α) (step : α → Reader τ α) : Reader τ α :=
  fun ts => (operand ts).bind fun (a, rest) => chainFrom step rest.length a rest

/-- A step over an operator and a further operand. -/
def infixStep (operand : Reader τ α) (join? : τ → Option (α → α → α)) (a : α) : Reader τ α
  | [] => none
  | t :: ts => (join? t).bind fun join => (operand ts).map fun (b, rest) => (join a b, rest)

/-- What has been read, if the token comes next, which is passed over. -/
def upTo [DecidableEq τ] (t : τ) : Option (α × List τ) → Option (α × List τ)
  | some (a, u :: rest) => if u = t then some (a, rest) else none
  | _ => none

/-- The reader takes the tokens for the thing, whatever comes after them that it does not go on
with. -/
def Reads (r : Reader τ α) (tail : List τ → Prop) (ts : List τ) (a : α) : Prop :=
  ∀ rest, tail rest → r (ts ++ rest) = some (a, rest)

variable {operand : Reader τ α} {step : α → Reader τ α} {tail : List τ → Prop}
  {join? : τ → Option (α → α → α)} {join : α → α → α} {t : τ}

theorem Reads.mono {r : Reader τ α} {tail' : List τ → Prop} {ts : List τ} {a : α}
    (h : Reads r tail ts a) (htail : ∀ rest, tail' rest → tail rest) : Reads r tail' ts a :=
  fun rest hrest => h rest (htail rest hrest)

theorem chainFrom_halts {rest : List τ} {a : α} (h : step a rest = none) (n : Nat) :
    chainFrom step n a rest = some (a, rest) := by
  cases n with
  | zero => rfl
  | succ n => rw [chainFrom, h]

/-- An operand alone is a chain. -/
theorem chain_reads_one {ts : List τ} {a : α} (h : Reads operand tail ts a)
    (hhalts : ∀ rest, tail rest → step a rest = none) : Reads (chain operand step) tail ts a := by
  intro rest hrest
  rw [chain, h rest hrest]
  exact chainFrom_halts (hhalts rest hrest) _

/-- An operand and a single step. -/
theorem chain_reads_step {tail' : List τ → Prop} {ts us : List τ} {a b : α}
    (h : Reads operand tail ts a) (hus : us ≠ []) (hstep : Reads (step a) tail' us b)
    (htail : ∀ rest, tail' rest → tail (us ++ rest))
    (hhalts : ∀ rest, tail' rest → step b rest = none) :
    Reads (chain operand step) tail' (ts ++ us) b := by
  intro rest hrest
  obtain ⟨u, us, rfl⟩ := List.exists_cons_of_ne_nil hus
  have hoperand : chain operand step (ts ++ (u :: us ++ rest)) =
      chainFrom step ((us ++ rest).length + 1) a (u :: us ++ rest) := by
    rw [chain, h _ (htail rest hrest)]
    rfl
  rw [List.append_assoc, hoperand, chainFrom, hstep rest hrest]
  exact chainFrom_halts (hhalts rest hrest) _

section Items

variable {β : Type} {tokens : β → List τ} {value : β → α} {x : β} {xs : List β}

theorem tail_flatMap (ht : ∀ rest, tail (t :: rest)) {rest : List τ} (h : tail rest) :
    tail ((xs.flatMap fun x => t :: tokens x) ++ rest) := by
  cases xs with
  | nil => exact h
  | cons x xs => exact ht _

theorem chainFrom_reads (hjoin : join? t = some join) (ht : ∀ rest, tail (t :: rest))
    (hxs : ∀ x ∈ xs, Reads operand tail (tokens x) (value x)) {rest : List τ} (htail : tail rest)
    (hhalts : ∀ a, infixStep operand join? a rest = none) {n : Nat} (hn : xs.length ≤ n) (a : α) :
    chainFrom (infixStep operand join?) n a ((xs.flatMap fun x => t :: tokens x) ++ rest) =
      some ((xs.map value).foldl join a, rest) := by
  induction xs generalizing n a with
  | nil => exact chainFrom_halts (hhalts a) n
  | cons x xs ih =>
    obtain ⟨n, rfl⟩ := Nat.exists_eq_add_one.mpr (Nat.lt_of_lt_of_le (Nat.succ_pos _) hn)
    have hmore : tail ((xs.flatMap fun x => t :: tokens x) ++ rest) := tail_flatMap ht htail
    have hx := hxs x List.mem_cons_self _ hmore
    have hstep : infixStep operand join? a
        (((x :: xs).flatMap fun x => t :: tokens x) ++ rest) =
          some (join a (value x), (xs.flatMap fun x => t :: tokens x) ++ rest) := by
      rw [List.flatMap_cons, List.append_assoc, List.cons_append, infixStep, hjoin,
        Option.bind_some, hx]
      rfl
    rw [chainFrom, hstep]
    exact ih (fun y hy => hxs y (List.mem_cons_of_mem x hy)) (Nat.le_of_succ_le_succ hn) _

theorem intercalate_cons :
    [t].intercalate ((x :: xs).map tokens) = tokens x ++ xs.flatMap fun y => t :: tokens y := by
  induction xs generalizing x with
  | nil => simp
  | cons y ys ih =>
    rw [List.map_cons, List.map_cons, List.intercalate_cons_cons, ← List.map_cons, ih,
      List.flatMap_cons, List.append_assoc]
    rfl

theorem length_le_flatMap : xs.length ≤ (xs.flatMap fun x => t :: tokens x).length := by
  induction xs with
  | nil => exact Nat.le_refl 0
  | cons x xs ih =>
    rw [List.flatMap_cons, List.length_append, List.length_cons, List.length_cons]
    omega

theorem length_le_intercalate {y : β} (hy : y ∈ x :: xs) :
    (tokens y).length ≤ ([t].intercalate ((x :: xs).map tokens)).length := by
  rw [intercalate_cons, List.length_append]
  rcases List.mem_cons.mp hy with rfl | hy
  · exact Nat.le_add_right _ _
  · have hmem := List.mem_map_of_mem (f := fun z => t :: tokens z) hy
    have hlength := (List.sublist_flatten_of_mem hmem).length_le
    rw [List.length_cons, ← List.flatMap_def] at hlength
    omega

/-- Operands with one operator between them are grouped to the left. -/
theorem chain_reads (hjoin : join? t = some join) (ht : ∀ rest, tail (t :: rest))
    (hxs : ∀ y ∈ x :: xs, Reads operand tail (tokens y) (value y)) :
    Reads (chain operand (infixStep operand join?))
      (fun rest => tail rest ∧ ∀ a, infixStep operand join? a rest = none)
      ([t].intercalate ((x :: xs).map tokens)) ((xs.map value).foldl join (value x)) := by
  rintro rest ⟨htail, hhalts⟩
  have hrest := fun y hy => hxs y (List.mem_cons_of_mem x hy)
  rw [intercalate_cons, List.append_assoc, chain,
    hxs x List.mem_cons_self _ (tail_flatMap ht htail)]
  refine chainFrom_reads hjoin ht hrest htail hhalts ?_ _
  rw [List.length_append]
  exact Nat.le_add_right_of_le length_le_flatMap

end Items

/-! ### One token further -/

/-- Nothing comes next, or one of these. -/
def Heads (ts rest : List τ) : Prop := ∀ t ∈ rest.head?, t ∈ ts

theorem heads_nil (ts : List τ) : Heads ts [] := by simp [Heads]

theorem heads_cons {ts : List τ} {u : τ} (hu : u ∈ ts) (rest : List τ) : Heads ts (u :: rest) := by
  intro v hv
  rwa [← Option.mem_some.mp hv]

theorem Heads.mono {ts us rest : List τ} (h : Heads ts rest) (hsub : ts ⊆ us) : Heads us rest :=
  fun t ht => hsub (h t ht)

section Heads

variable {ts us : List τ} {a b : α}

theorem infixStep_halts {rest : List τ} (h : Heads ts rest) (hts : ∀ t ∈ ts, join? t = none)
    (a : α) : infixStep operand join? a rest = none := by
  cases rest with
  | nil => rfl
  | cons t rest => rw [infixStep, hts t (h t rfl), Option.bind_none]

/-- What is read at a level below is read at the level of an operator that does not come next. -/
theorem chain_of_reads (h : Reads operand (Heads us) ts a) (hus : ∀ t ∈ us, join? t = none) :
    Reads (chain operand (infixStep operand join?)) (Heads us) ts a :=
  chain_reads_one h fun _ hrest => infixStep_halts hrest hus a

/-- Operands with an operator between them, before something that is no such operator. -/
theorem chain_of_items {β : Type} {tokens : β → List τ} {value : β → α} {x : β} {xs : List β}
    (hjoin : join? t = some join)
    (hxs : ∀ y ∈ x :: xs, Reads operand (Heads (t :: us)) (tokens y) (value y))
    (hus : ∀ t ∈ us, join? t = none) :
    Reads (chain operand (infixStep operand join?)) (Heads us)
      ([t].intercalate ((x :: xs).map tokens)) ((xs.map value).foldl join (value x)) := by
  have hheads : ∀ rest, Heads (t :: us) (t :: rest) := heads_cons List.mem_cons_self
  exact (chain_reads hjoin hheads hxs).mono fun rest hrest =>
    ⟨hrest.mono (List.subset_cons_self t us), fun a => infixStep_halts hrest hus a⟩

theorem chain_of_two (hjoin : join? t = some join) (ha : Reads operand (Heads (t :: us)) ts a)
    {vs : List τ} (hb : Reads operand (Heads (t :: us)) vs b) (hus : ∀ t ∈ us, join? t = none) :
    Reads (chain operand (infixStep operand join?)) (Heads us) (ts ++ [t] ++ vs) (join a b) := by
  have hparts : ∀ y ∈ [(ts, a), (vs, b)], Reads operand (Heads (t :: us)) y.1 y.2 := by
    intro y hy
    rcases List.mem_cons.mp hy with rfl | hy
    · exact ha
    · rw [List.mem_singleton.mp hy]
      exact hb
  have htokens : [t].intercalate ([(ts, a), (vs, b)].map fun y => y.1) = ts ++ [t] ++ vs := by simp
  rw [← htokens]
  exact chain_of_items hjoin hparts hus

end Heads

end Chains

end Newsfeed.Reading
