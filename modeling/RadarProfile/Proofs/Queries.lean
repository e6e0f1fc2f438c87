import Mathlib.Data.List.TakeWhile
import RadarProfile.Proofs.Decoding
import RadarProfile.Proofs.Receipts
import RadarProfile.Proofs.Simulation
import RadarProfile.Proofs.Topics

set_option autoImplicit false

/-! # Queries to a service

A service that is called by its own name hears every query, because a key expression overlaps
itself. Whatever it replies, it cannot be told apart from a script of the same replies
(`simulates`): where the replies are used up, both accept. A service that hears keeps a record
of the queries (`records`), and where there is none the endpoint is deaf (`isDeaf`). -/

namespace RadarProfile

namespace KeyExpr

theorem question_not_mem_of_isMixed {chunk : Text} (h : isMixed chunk = true) : '?' ∉ chunk := by
  fun_induction isMixed chunk with
  | case1 => exact List.not_mem_nil
  | case2 rest => cases h
  | case3 rest _ ih => simpa using ih h
  | case4 c rest _ _ ih =>
      rw [Bool.and_eq_true, Bool.not_eq_true'] at h
      intro hmem
      rcases List.mem_cons.mp hmem with rfl | hmem
      · exact absurd h.1 (by decide)
      · exact ih h.2 hmem

theorem question_not_mem_of_isChunk {chunk : Text} (h : isChunk chunk = true) :
    '?' ∉ chunk := by
  unfold isChunk at h
  simp only [Bool.or_eq_true, beq_iff_eq, Bool.and_eq_true] at h
  rcases h with (rfl | rfl) | h
  · decide
  · decide
  · exact question_not_mem_of_isMixed h.2

theorem question_not_mem_of_isValid {t : Text} (h : isValid t = true) : '?' ∉ t := by
  obtain ⟨front, last, ht, hchunks⟩ := exists_chunks t
  rw [isValid, Bool.and_eq_true, List.all_eq_true, hchunks] at h
  rw [ht]
  intro hmem
  rcases List.mem_append.mp hmem with hmem | hmem
  · obtain ⟨chunk, hchunk, hmem⟩ := List.mem_flatMap.mp hmem
    rcases List.mem_append.mp hmem with hmem | hmem
    · exact question_not_mem_of_isChunk (h.1 chunk (List.mem_append_left _ hchunk)) hmem
    · exact absurd hmem (by decide)
  · exact question_not_mem_of_isChunk
      (h.1 last (List.mem_append_right _ List.mem_cons_self)) hmem

end KeyExpr

namespace Service

variable {name : Text}

theorem address_of_isValid (h : KeyExpr.isValid name = true) : address name = name := by
  have hquestion := KeyExpr.question_not_mem_of_isValid h
  rw [address, List.takeWhile_eq_self_iff]
  intro c hc
  rw [bne_iff_ne]
  rintro rfl
  exact hquestion hc

/-- **A service hears its own name.** -/
theorem hears_of_isValid {service : Service} (hname : service.name = name)
    (h : KeyExpr.isValid name = true) : service.hears name = true := by
  rw [hears, address_of_isValid h, h, hname, KeyExpr.overlap_self]
  rfl

/-! ## One query -/

/-- A query to a service that hears it. -/
theorem send_of_hears {service : Service} (h : service.hears name = true) (command : Text) :
    (endpoint name).send (some service) command =
      ⟨response name service.nextReply, replyNotes name service.nextReply,
        some (service.take command)⟩ := by
  have haddress : KeyExpr.isValid (address name) = true := (Bool.and_eq_true _ _ ▸ h).1
  simp only [endpoint, haddress, h, if_true]

/-- **A service that hears keeps a record** of the queries. -/
theorem records (name : Text) :
    (endpoint name).Records (fun reached => ∃ service, reached = some service ∧
      service.hears name = true) (fun _ => True)
      (fun reached => (reached.map Service.received).getD []) where
  received_send := by
    rintro _ command ⟨service, rfl, hhears⟩ -
    rw [send_of_hears hhears]
    rfl
  listens_send := by
    rintro _ command response ⟨service, rfl, hhears⟩ - -
    rw [send_of_hears hhears]
    exact ⟨service.take command, rfl, hhears⟩

/-- **Without a service that hears there is no reply.** -/
theorem isDeaf {reached : Option Service} (h : reached.any (·.hears name) = false) :
    (endpoint name).IsDeaf reached := by
  intro command
  unfold endpoint
  dsimp only
  by_cases haddress : KeyExpr.isValid (address name) = true
  · rw [if_pos haddress]
    cases reached with
    | none => exact ⟨_, _, rfl⟩
    | some service =>
        have hdeaf : ¬ service.hears name = true := by
          rw [Bool.not_eq_true]
          exact h
        dsimp only
        rw [if_neg hdeaf]
        exact ⟨_, _, rfl⟩
  · rw [if_neg haddress]
    exact ⟨_, _, rfl⟩

/-! ## A script of the replies -/

/-- The service of a name that has still to give some replies, and the script of the same
replies. -/
def Scripts (name : Text) (reached : Option Service) (script : List Scripted.Reply) : Prop :=
  ∃ service, reached = some service ∧ service.name = name ∧
    script = service.replies.map (response name)

theorem marked_acceptance (command : Text) :
    Text.occursIn successMarker (Scripted.acceptance command) = true := by
  rw [Text.occursIn_iff]
  refine ⟨command ++ ['\n'], "\nmmwDemo:/>".toList, ?_⟩
  simp only [Scripted.acceptance, List.append_assoc, List.cons_append, List.nil_append]

/-- **A service cannot be told apart from a script of its replies.** -/
theorem simulates (h : KeyExpr.isValid name = true) (ready : Bool) :
    (endpoint name).Simulates (Scripted.endpoint ready) successMarker (Scripts name) where
  alike := by
    rintro _ _ command ⟨service, rfl, hname, rfl⟩
    rw [send_of_hears (hears_of_isValid hname h)]
    rcases service with ⟨_, replies, isAlive, received⟩
    cases replies with
    | nil =>
        -- nothing is prescribed any more: the marker on one side, an acceptance on the other
        show Endpoint.Alike successMarker (.ok (Utf8.decode (Utf8.encode successMarker)))
          (.ok (Scripted.acceptance command))
        rw [Utf8.decode_encode]
        exact .marked (Text.occursIn_append_left [] successMarker) (marked_acceptance command)
    | cons reply rest => exact .same
  related_send := by
    rintro _ _ command ⟨service, rfl, hname, rfl⟩
    rw [send_of_hears (hears_of_isValid hname h)]
    refine ⟨service.take command, rfl, hname, ?_⟩
    rcases service with ⟨_, replies, isAlive, received⟩
    cases replies with
    | nil => rfl
    | cons reply rest => rfl

end Service

end RadarProfile
