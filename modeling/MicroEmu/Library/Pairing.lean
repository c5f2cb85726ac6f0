import Mathlib.Data.List.Zip

/-!
# Replies without an id

Requests wait in the order they were sent, and a reply goes to the one that waits longest.
As long as no reply comes for nobody, the replies are paired with the requests by position.
-/

namespace MicroEmu
namespace Library

universe u v

variable {α : Type u} {β : Type v} {sent waiting : List α} {given : List (α × β)}
  {replies : List β} {request : α}

/-- The requests are those with a reply, and behind them those that wait. -/
structure Pairing (sent waiting : List α) (given : List (α × β)) (replies : List β) : Prop where
  sent_eq : sent = given.map Prod.fst ++ waiting
  replies_eq : given.map Prod.snd = replies

namespace Pairing

theorem nil : Pairing ([] : List α) [] ([] : List (α × β)) [] := ⟨rfl, rfl⟩

/-- A new request waits behind the others. -/
theorem send (h : Pairing sent waiting given replies) (request : α) :
    Pairing (sent ++ [request]) (waiting ++ [request]) given replies :=
  ⟨by rw [h.sent_eq, List.append_assoc], h.replies_eq⟩

/-- A reply goes to the request that waits longest. -/
theorem reply (h : Pairing sent (request :: waiting) given replies) (value : β) :
    Pairing sent waiting (given ++ [(request, value)]) (replies ++ [value]) where
  sent_eq := by
    rw [h.sent_eq, List.map_append, List.append_assoc]
    rfl
  replies_eq := by
    rw [List.map_append, h.replies_eq]
    rfl

/-- The pairs are the requests with the replies at their positions. -/
theorem given_eq (h : Pairing sent waiting given replies) : given = sent.zip replies := by
  have hlength : (given.map Prod.fst).length = replies.length := by
    rw [← h.replies_eq, List.length_map, List.length_map]
  calc given = (given.map Prod.fst).zip (given.map Prod.snd) := by
        rw [List.zip_map', List.map_id'']
        exact fun _ => rfl
    _ = (given.map Prod.fst ++ waiting).zip (replies ++ []) := by
        rw [List.zip_append hlength, List.zip_nil_right, List.append_nil, h.replies_eq]
    _ = sent.zip replies := by rw [h.sent_eq, List.append_nil]

/-- Every request has its reply or waits. -/
theorem length_eq (h : Pairing sent waiting given replies) :
    sent.length = replies.length + waiting.length := by
  rw [h.sent_eq, ← h.replies_eq, List.length_append, List.length_map, List.length_map]

end Pairing

/-- Fewer replies pair the first requests as they were. -/
theorem zip_prefix_zip (sent : List α) {front : List β} (h : front <+: replies) :
    sent.zip front <+: sent.zip replies := by
  obtain ⟨more, rfl⟩ := h
  induction sent generalizing front with
  | nil => exact List.nil_prefix
  | cons request sent ih =>
      cases front with
      | nil => exact List.nil_prefix
      | cons value front => exact (List.prefix_cons_inj (request, value)).mpr ih

end Library
end MicroEmu
