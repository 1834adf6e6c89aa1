import Mathlib.Data.List.Basic

namespace Tlsdate.LinePieces

variable {α : Type} [DecidableEq α]

/-- The longest start of `s` that has at most `n` elements and nothing after a
`stop`, and what is left. -/
def piece (stop : α) : Nat → List α → List α × List α
  | 0, s => ([], s)
  | _ + 1, [] => ([], [])
  | n + 1, x :: xs =>
      if x = stop then ([x], xs) else (x :: (piece stop n xs).1, (piece stop n xs).2)

theorem piece_shorter (stop : α) (n : Nat) {s : List α} (h : s ≠ []) :
    (piece stop (n + 1) s).2.length < s.length := by
  have hle (n : Nat) (s : List α) : (piece stop n s).2.length ≤ s.length := by
    induction n generalizing s with
    | zero => exact Nat.le_refl _
    | succ n ih =>
        cases s with
        | nil => exact Nat.le_refl _
        | cons x xs =>
            rw [piece]
            split_ifs
            · exact Nat.le_succ _
            · exact Nat.le_trans (ih xs) (Nat.le_succ _)
  cases s with
  | nil => exact absurd rfl h
  | cons x xs =>
      rw [piece]
      split_ifs
      · exact Nat.lt_succ_self _
      · exact Nat.lt_succ_of_le (hle n xs)

def pieces (stop : α) (n : Nat) (s : List α) : List (List α) :=
  if h : s = [] then []
  else
    have := piece_shorter stop n h
    (piece stop (n + 1) s).1 :: pieces stop n (piece stop (n + 1) s).2
termination_by s.length

def lines (stop : α) : List α → List (List α)
  | [] => []
  | x :: xs =>
      if x = stop then [x] :: lines stop xs
      else (x :: (lines stop xs).headD []) :: (lines stop xs).tail

variable {stop : α} {n : Nat} {w s : List α}

theorem piece_append (n : Nat) (s : List α) : (piece stop n s).1 ++ (piece stop n s).2 = s := by
  induction n generalizing s with
  | zero => rfl
  | succ n ih =>
      cases s with
      | nil => rfl
      | cons x xs =>
          rw [piece]
          split_ifs
          · rfl
          · rw [List.cons_append, ih]

theorem piece_line (hw : stop ∉ w) (hn : w.length ≤ n) (s : List α) :
    piece stop (n + 1) (w ++ stop :: s) = (w ++ [stop], s) := by
  induction w generalizing n with
  | nil => simp [piece]
  | cons x w ih =>
      obtain ⟨n, rfl⟩ := Nat.exists_eq_add_of_lt (Nat.lt_of_lt_of_le (Nat.succ_pos w.length) hn)
      have hx : x ≠ stop := fun h => hw (h ▸ List.mem_cons_self)
      have hlen : w.length ≤ 0 + n := by
        rw [List.length_cons] at hn
        omega
      rw [List.cons_append, piece, if_neg hx, ih (fun h => hw (List.mem_cons_of_mem _ h)) hlen]
      rfl

theorem piece_full (hw : stop ∉ w) (s : List α) : piece stop w.length (w ++ s) = (w, s) := by
  induction w with
  | nil => rfl
  | cons x w ih =>
      have hx : x ≠ stop := fun h => hw (h ▸ List.mem_cons_self)
      rw [List.cons_append, List.length_cons, piece, if_neg hx,
        ih fun h => hw (List.mem_cons_of_mem _ h)]

theorem piece_take (hs : stop ∉ s.dropLast) (n : Nat) : piece stop n s = (s.take n, s.drop n) := by
  induction n generalizing s with
  | zero => rfl
  | succ n ih =>
      match s with
      | [] => rfl
      | [x] => cases n <;> simp [piece]
      | x :: y :: xs =>
          rw [List.dropLast_cons_cons] at hs
          have hx : x ≠ stop := fun h => hs (h ▸ List.mem_cons_self)
          rw [piece, if_neg hx, ih fun h => hs (List.mem_cons_of_mem _ h)]
          rfl

@[simp] theorem pieces_nil : pieces stop n ([] : List α) = [] := by
  rw [pieces, dif_pos rfl]

theorem pieces_cons {p : List α} (hs : s ≠ []) (r : List α) (h : piece stop (n + 1) s = (p, r)) :
    pieces stop n s = p :: pieces stop n r := by
  rw [pieces, dif_neg hs]
  dsimp only
  rw [h]

theorem pieces_line (hw : stop ∉ w) (hn : w.length ≤ n) (s : List α) :
    pieces stop n (w ++ stop :: s) = (w ++ [stop]) :: pieces stop n s :=
  pieces_cons (by simp) s (piece_line hw hn s)

theorem pieces_full (hw : stop ∉ w) (hn : w.length = n + 1) (s : List α) :
    pieces stop n (w ++ s) = w :: pieces stop n s := by
  have hne : w ++ s ≠ [] := by
    rw [Ne, List.append_eq_nil_iff]
    rintro ⟨rfl, -⟩
    cases hn
  exact pieces_cons hne s (hn ▸ piece_full hw s)

theorem pieces_append {w : List α} (hw : stop ∉ w) (s : List α) :
    pieces stop n (w ++ stop :: s) = pieces stop n (w ++ [stop]) ++ pieces stop n s := by
  by_cases hn : w.length ≤ n
  · rw [pieces_line hw hn, pieces_line hw hn, pieces_nil, List.singleton_append]
  · have hsplit := List.take_append_drop (n + 1) w
    have hlen : (w.take (n + 1)).length = n + 1 := List.length_take_of_le (Nat.not_le.mp hn)
    have htake : stop ∉ w.take (n + 1) := fun h => hw (List.mem_of_mem_take h)
    have hdrop : stop ∉ w.drop (n + 1) := fun h => hw (List.mem_of_mem_drop h)
    have hshorter : (w.drop (n + 1)).length < w.length := by
      rw [List.length_drop]
      omega
    rw [← hsplit, List.append_assoc, List.append_assoc, pieces_full htake hlen,
      pieces_full htake hlen, pieces_append hdrop s, List.cons_append]
termination_by w.length

theorem flatten_pieces (s : List α) : (pieces stop n s).flatten = s := by
  by_cases hs : s = []
  · subst hs
    rw [pieces_nil, List.flatten_nil]
  · have := piece_shorter stop n hs
    rw [pieces_cons hs _ rfl, List.flatten_cons, flatten_pieces, piece_append]
termination_by s.length

theorem mem_of_mem_pieces {p : List α} (h : p ∈ pieces stop n s) {x : α} (hx : x ∈ p) : x ∈ s := by
  rw [← @flatten_pieces α _ stop n s]
  exact List.mem_flatten.mpr ⟨p, h, hx⟩

theorem lines_rest (hw : stop ∉ w) (hne : w ≠ []) : lines stop w = [w] := by
  induction w with
  | nil => exact absurd rfl hne
  | cons x w ih =>
      have hx : x ≠ stop := fun h => hw (h ▸ List.mem_cons_self)
      rw [lines, if_neg hx]
      cases w with
      | nil => rfl
      | cons y w =>
          rw [ih (fun h => hw (List.mem_cons_of_mem _ h)) (List.cons_ne_nil _ _)]
          rfl

theorem lines_line (hw : stop ∉ w) (s : List α) :
    lines stop (w ++ stop :: s) = (w ++ [stop]) :: lines stop s := by
  induction w with
  | nil => simp [lines]
  | cons x w ih =>
      have hx : x ≠ stop := fun h => hw (h ▸ List.mem_cons_self)
      rw [List.cons_append, lines, if_neg hx, ih fun h => hw (List.mem_cons_of_mem _ h)]
      rfl

theorem line_induction (stop : α) {P : List α → Prop} (rest : ∀ w, stop ∉ w → P w)
    (line : ∀ w s, stop ∉ w → P s → P (w ++ stop :: s)) (s : List α) : P s := by
  by_cases hs : stop ∈ s
  · obtain ⟨w, t, hsplit, hw⟩ := List.eq_append_cons_of_mem hs
    have : t.length < s.length := by
      rw [hsplit, List.length_append, List.length_cons]
      omega
    rw [hsplit]
    exact line w t hw (line_induction stop rest line t)
  · exact rest s hs
termination_by s.length

theorem pieces_lines (s : List α) :
    pieces stop n s = (lines stop s).flatMap (pieces stop n) := by
  induction s using line_induction stop with
  | rest w hw =>
      by_cases hne : w = []
      · subst hne
        rw [pieces_nil, lines, List.flatMap_nil]
      · rw [lines_rest hw hne, List.flatMap_singleton]
  | line w s hw ih => rw [pieces_append hw, lines_line hw, List.flatMap_cons, ih]

end Tlsdate.LinePieces
