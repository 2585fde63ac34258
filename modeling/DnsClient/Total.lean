/-!
Sums of weights over lists. They bound how many steps a run takes: each step takes weight away.
-/

namespace DnsClient

variable {α β : Type}

def total (weight : α → Nat) : List α → Nat
  | [] => 0
  | a :: as => weight a + total weight as

@[simp] theorem total_nil (w : α → Nat) : total w [] = 0 := rfl

@[simp] theorem total_cons (w : α → Nat) (a : α) (as : List α) :
    total w (a :: as) = w a + total w as := rfl

@[simp] theorem total_append (w : α → Nat) (as bs : List α) :
    total w (as ++ bs) = total w as + total w bs := by
  induction as with
  | nil => simp
  | cons a as ih => simp [ih, Nat.add_assoc]

@[simp] theorem total_map (w : β → Nat) (f : α → β) (as : List α) :
    total w (as.map f) = total (w ∘ f) as := by
  induction as with
  | nil => rfl
  | cons a as ih => simp [ih]

@[simp] theorem total_one (as : List α) : total (fun _ => 1) as = as.length := by
  induction as with
  | nil => rfl
  | cons a as ih => simp [ih, Nat.add_comm]

end DnsClient
