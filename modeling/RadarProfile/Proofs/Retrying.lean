import RadarProfile.Program.Forward
import RadarProfile.Proofs.Passthrough
import RadarProfile.Proofs.Queries

set_option autoImplicit false

/-! # Forwarding with a retry and without

Without a retry the forwarding program asks the endpoint itself, and with one it leaves that to a
dispatch. The two cannot be told apart unless the first response lacks the success marker
(`ForwardOptions.sendRetrying_of_unmarked`). On a command line the retry is a flag, which can be
written in front of everything else (`ForwardOptions.parse_retry_cons`). -/

namespace RadarProfile

def ServiceReply.text? : ServiceReply → Option Text
  | .answer bytes => some (Utf8.decode bytes)
  | .refusal _ => none
  | .silence => none

theorem Service.response_eq_ok_iff {name text : Text} {reply : ServiceReply} :
    response name reply = .ok text ↔ reply.text? = some text := by
  cases reply with
  | answer bytes => simp [response, ServiceReply.text?]
  | refusal bytes => simp [response, ServiceReply.text?]
  | silence => simp [response, ServiceReply.text?]

namespace ForwardOptions

variable {o : ForwardOptions} {reached : Option Service}

/-! ## The flag on the command line -/

def retryRow : OptionRow := .withLetter .retry "retry" .switch

theorem retryRow_mem : retryRow ∈ grammar.rows := by decide +kernel

theorem key_ne_retry {pieces : List Piece} {taken given : List Given}
    (hfits : ∀ piece ∈ pieces, piece.Fits grammar)
    (htaken : Reading.takeAll [] (pieces.flatMap (Piece.readings grammar)) = some taken)
    (hoff : Settings.switch (taken ++ given) .retry = false) : ∀ x ∈ taken, x.key ≠ .retry := by
  -- what was given for the key would be the flag, and the flag would be on
  have hon : ∀ setting ∈ Settings.all taken .retry, setting = .switch true := by
    intro setting hsetting
    obtain ⟨x, hx, rfl⟩ := List.mem_map.mp hsetting
    obtain ⟨hmem, hkey⟩ := List.mem_filter.mp hx
    obtain ⟨r, hr, hgiven⟩ := Reading.exists_reading_of_takeAll htaken hmem
    obtain ⟨piece, hpiece, hr⟩ := List.mem_flatMap.mp hr
    have hrowkey : r.row.key = .retry := by
      rw [← Reading.key_of_given? hgiven]
      exact beq_iff_eq.mp hkey
    rcases Piece.row_of_mem_readings (hfits piece hpiece) hr with hrow | ⟨hsingle, -⟩
    · have heq : r.row = retryRow := wellFormed.eq_of_key_eq hrow retryRow_mem hrowkey
      have hresult := Piece.result_of_isFlag (hfits piece hpiece) hr wellFormed hrow
        (by rw [heq]; rfl)
      exact Except.ok.inj ((Reading.given?_eq_some_iff.mp hgiven).1.symm.trans hresult)
    · cases hsingle
  rw [← Settings.all_eq_nil_iff]
  rw [Settings.switch, Settings.all_append] at hoff
  cases hall : Settings.all taken .retry with
  | nil => rfl
  | cons setting rest =>
      rw [hall] at hon hoff
      rw [hon setting List.mem_cons_self] at hoff
      cases hoff

theorem ofGiven_retry (given : List Given) :
    ofGiven (⟨.retry, .switch true⟩ :: given) = { ofGiven given with retry := true } := by
  rw [ofGiven_eq fun key hretry _ => Settings.all_cons_of_ne hretry.symm]
  have hcommand : Settings.texts (⟨.retry, .switch true⟩ :: given) .command =
      Settings.texts given .command := by
    rw [Settings.texts, Settings.all_cons_of_ne (by decide), Settings.texts]
  rw [hcommand]
  rfl

/-- **The flag can be written in front** of a command line that does not ask for a retry. -/
theorem parse_retry_cons {environment : Environment} {words : List Text}
    (h : parse environment words = .ok o) (hoff : o.retry = false) :
    parse environment ("--retry".toList :: words) = .ok { o with retry := true } := by
  obtain ⟨pieces, given, lead, first, rest, hfits, ⟨taken, extra, htaken, hextra, rfl⟩, hlead,
    rfl, rfl⟩ := parse_eq_ok_iff.mp h
  have hfresh := key_ne_retry hfits htaken hoff
  have hpiece : (Piece.long retryRow .bare).Fits grammar := ⟨retryRow_mem, rfl⟩
  have hvariable : ∀ row ∈ grammar.variableRows, row.1 = .retry → row.2.1 = none := by
    decide +kernel
  refine parse_eq_ok_iff.mpr ⟨.long retryRow .bare :: pieces,
    ⟨.retry, .switch true⟩ :: (taken ++ extra.flatten), lead, first, rest, ?_, ⟨_, extra,
      Reading.takeAll_singleton_of_fresh htaken hfresh, ?_, rfl⟩, hlead, rfl, ?_⟩
  · intro piece hmem
    rcases List.mem_cons.mp hmem with rfl | hmem
    · exact hpiece
    · exact hfits piece hmem
  · -- the flag has no variable, and to the other rows it is nothing
    refine (Grammar.forall₂_supplies_congr fun row hrow found => ?_).mp hextra
    by_cases hkey : row.1 = .retry
    · rw [Grammar.supplies_of_no_variable (hvariable row hrow hkey),
        Grammar.supplies_of_no_variable (hvariable row hrow hkey)]
    · refine Grammar.supplies_congr (Scan.lacks_congr ?_) fun _ => rfl
      exact (Settings.all_cons_of_ne (Ne.symm hkey)).symm
  · rw [ofGiven_retry]

/-! ## Sending -/

theorem forwardMain_of_parse {surroundings : Surroundings} {environment : Environment}
    {words : List Text} (h : parse environment words = .ok o) :
    forwardMain surroundings environment words = o.main surroundings := by
  rw [forwardMain, h]

theorem main_of_opens (surroundings : Surroundings)
    (hopen : o.session.openIn surroundings.network = .ok reached) :
    o.main surroundings = if o.retry then o.sendRetrying reached else o.sendOnce reached := by
  rw [main, hopen]

def exitOf (sent : Sent (Option Service)) (isSuccess : Text → Bool) : ForwardExit :=
  match sent.response with
  | .ok response =>
    ⟨if isSuccess response then 0 else 1, response ++ ['\n'], Service.receipts sent.state⟩
  | .error _ => ⟨1, [], Service.receipts sent.state⟩

theorem sendOnce_eq (o : ForwardOptions) (reached : Option Service) : o.sendOnce reached =
    exitOf ((Service.endpoint o.service).send reached o.payload) fun _ => true := by
  unfold sendOnce exitOf
  cases (Service.endpoint o.service).send reached o.payload with
  | mk response notes after =>
      cases response with
      | error fault => rfl
      | ok response => rfl

/-- **The retry changes nothing** if there is no response, or one with the success marker. -/
theorem sendRetrying_of_settled (h : ∀ response,
    ((Service.endpoint o.service).send reached o.payload).response = .ok response →
      Text.occursIn successMarker response = true) :
    o.sendRetrying reached = o.sendOnce reached := by
  rw [sendOnce_eq, sendRetrying, Endpoint.dispatch, show attemptLimit - 1 = 1 from rfl]
  rcases hsent : (Service.endpoint o.service).send reached o.payload with
    ⟨fault | response, notes, after⟩
  · rw [Endpoint.deliver_undelivered 1 1 hsent]
    rfl
  · have hmarked : Text.occursIn successMarker response = true := h response (by rw [hsent])
    rw [Endpoint.deliver_marked 1 1 hsent hmarked]
    rfl

/-- **Without the success marker in the first response** the second send decides. -/
theorem sendRetrying_of_unmarked {first : Text} {notes : List Note} {between : Option Service}
    (hsent : (Service.endpoint o.service).send reached o.payload = ⟨.ok first, notes, between⟩)
    (hunmarked : Text.occursIn successMarker first = false) :
    o.sendRetrying reached = exitOf ((Service.endpoint o.service).send between o.payload)
      (Text.occursIn successMarker) := by
  rw [sendRetrying, Endpoint.dispatch, show attemptLimit - 1 = 1 from rfl,
    Endpoint.deliver_unmarked_spare 1 0 hsent hunmarked]
  rcases hresent : (Service.endpoint o.service).send between o.payload with
    ⟨fault | second, notes', after⟩
  · rw [Endpoint.deliver_undelivered 2 0 hresent]
    rfl
  · cases hsecond : Text.occursIn successMarker second with
    | true =>
        rw [Endpoint.deliver_marked 2 0 hresent hsecond]
        simp only [exitOf, hsecond]
    | false =>
        rw [Endpoint.deliver_unmarked_last 2 hresent hsecond]
        simp only [exitOf, hsecond]

/-! ## The service at the other end -/

/-- A query to a service that hears it comes to the text of its next reply. -/
theorem exitOf_of_hears {name : Text} {service : Service} (h : service.hears name = true)
    (command : Text) (isSuccess : Text → Bool) :
    exitOf ((Service.endpoint name).send (some service) command) isSuccess =
      match service.nextReply.text? with
      | some response => ⟨if isSuccess response then 0 else 1, response ++ ['\n'],
          service.received.map .query ++ [.query command]⟩
      | none => ⟨1, [], service.received.map .query ++ [.query command]⟩ := by
  have hreceipts : Service.receipts (some (service.take command)) =
      service.received.map .query ++ [.query command] := by
    rw [Service.receipts, Service.take, List.map_append]
    rfl
  rw [Service.send_of_hears h]
  cases hreply : service.nextReply with
  | answer bytes => simp only [exitOf, Service.response, ServiceReply.text?, hreceipts]
  | refusal bytes => simp only [exitOf, Service.response, ServiceReply.text?, hreceipts]
  | silence => simp only [exitOf, Service.response, ServiceReply.text?, hreceipts]

/-- What the program shows when it sends once and the reply is this one, or none. -/
structure ShowsOnce (exit : ForwardExit) (earlier : List Receipt) (payload : Text)
    (reply : Option Text) : Prop where
  received_eq : exit.received = earlier ++ [.query payload]
  of_reply : ∀ response, reply = some response →
    exit.status = 0 ∧ exit.printed = response ++ ['\n']
  of_none : reply = none → exit.status = 1 ∧ exit.printed = []

/-- What the program shows when it sends twice and the second reply is this one, or none. -/
structure ShowsAgain (exit : ForwardExit) (earlier : List Receipt) (payload : Text)
    (reply : Option Text) : Prop where
  received_eq : exit.received = earlier ++ [.query payload, .query payload]
  of_marked : ∀ response, reply = some response → successMarker <:+: response →
    exit.status = 0 ∧ exit.printed = response ++ ['\n']
  of_unmarked : ∀ response, reply = some response → ¬ successMarker <:+: response →
    exit.status = 1 ∧ exit.printed = response ++ ['\n']
  of_none : reply = none → exit.status = 1 ∧ exit.printed = []

theorem showsOnce_of_hears {service : Service} (h : service.hears o.service = true) :
    ShowsOnce (o.sendOnce (some service)) (service.received.map .query) o.payload
      service.nextReply.text? := by
  rw [sendOnce_eq, exitOf_of_hears h]
  refine ⟨?_, fun response hreply => ?_, fun hreply => ?_⟩
  · cases service.nextReply.text? with
    | none => rfl
    | some response => rfl
  · rw [hreply]
    exact ⟨rfl, rfl⟩
  · rw [hreply]
    exact ⟨rfl, rfl⟩

theorem showsAgain_of_hears {service : Service} (h : service.hears o.service = true)
    {first : Text} (hfirst : service.nextReply.text? = some first)
    (hunmarked : ¬ successMarker <:+: first) :
    ShowsAgain (o.sendRetrying (some service)) (service.received.map .query) o.payload
      (service.take o.payload).nextReply.text? := by
  have hsent := Service.send_of_hears h o.payload
  rw [Service.response_eq_ok_iff.mpr hfirst] at hsent
  rw [← Text.occursIn_iff, Bool.not_eq_true] at hunmarked
  -- the service hears the second query as well, because it keeps its name
  have hagain : (service.take o.payload).hears o.service = true := h
  rw [sendRetrying_of_unmarked hsent hunmarked, exitOf_of_hears hagain]
  refine ⟨?_, fun response hreply hmarked => ?_, fun response hreply hunmarked' => ?_,
    fun hreply => ?_⟩
  · have hreceived : (service.take o.payload).received.map Receipt.query ++ [.query o.payload] =
        service.received.map .query ++ [.query o.payload, .query o.payload] := by
      rw [Service.take, List.map_append, List.append_assoc]
      rfl
    rw [hreceived]
    cases (service.take o.payload).nextReply.text? with
    | none => rfl
    | some response => rfl
  · rw [hreply]
    exact ⟨if_pos ((Text.occursIn_iff _ _).mpr hmarked), rfl⟩
  · rw [hreply]
    exact ⟨if_neg fun hmarked => hunmarked' ((Text.occursIn_iff _ _).mp hmarked), rfl⟩
  · rw [hreply]
    exact ⟨rfl, rfl⟩

/-- If nobody hears, the program fails and prints nothing. -/
theorem sendOnce_of_deaf (h : reached.any (·.hears o.service) = false) :
    o.sendOnce reached = ⟨1, [], Service.receipts reached⟩ := by
  obtain ⟨fault, notes, hsent⟩ := Service.isDeaf h o.payload
  rw [sendOnce_eq, hsent]
  rfl

theorem sendRetrying_of_deaf (h : reached.any (·.hears o.service) = false) :
    o.sendRetrying reached = o.sendOnce reached := by
  obtain ⟨fault, notes, hsent⟩ := Service.isDeaf h o.payload
  refine sendRetrying_of_settled fun response hresponse => ?_
  rw [hsent] at hresponse
  cases hresponse

/-- **With a retry and without.** Without one, the words of the command are sent once, with single
spaces between them, and the program prints whatever response comes and succeeds, or prints
nothing and fails. With one it does the same if no response comes or if the first response has the
success marker. Otherwise the words are sent once more, and the program prints the second
response and succeeds if that has the marker, or prints nothing and fails. On a command line the
flag for the retry can be written in front of everything else. -/
theorem forward_with_and_without_retry (o : ForwardOptions) (surroundings : Surroundings)
    (reached : Option Service) (hopen : o.session.openIn surroundings.network = .ok reached) :
    let plain := { o with retry := false }.main surroundings
    let retried := { o with retry := true }.main surroundings
    let payload := [' '].intercalate o.command
    (∀ environment words, parse environment words = .ok { o with retry := false } →
      forwardMain surroundings environment words = plain ∧
        parse environment ("--retry".toList :: words) = .ok { o with retry := true }) ∧
    (∀ environment words, parse environment words = .ok { o with retry := true } →
      forwardMain surroundings environment words = retried) ∧
    (∀ service, reached = some service → service.hears o.service = true →
      let earlier := service.received.map .query
      let first := service.nextReply.text?
      let second := (service.take payload).nextReply.text?
      ShowsOnce plain earlier payload first ∧
      ((∀ response, first = some response → successMarker <:+: response) → retried = plain) ∧
      ∀ response, first = some response → ¬ successMarker <:+: response →
        ShowsAgain retried earlier payload second) ∧
    (reached.any (·.hears o.service) = false →
      plain = ⟨1, [], Service.receipts reached⟩ ∧ retried = plain) := by
  intro plain retried payload
  have hplain : plain = o.sendOnce reached := main_of_opens surroundings hopen
  have hretried : retried = o.sendRetrying reached := main_of_opens surroundings hopen
  refine ⟨fun environment words h => ⟨forwardMain_of_parse h, ?_⟩,
    fun environment words h => forwardMain_of_parse h, ?_, fun hdeaf => ?_⟩
  · exact parse_retry_cons (o := { o with retry := false }) h rfl
  · rintro service rfl hhears earlier first second
    refine ⟨hplain ▸ showsOnce_of_hears hhears, fun hmarked => ?_,
      fun response hfirst hunmarked => hretried ▸ showsAgain_of_hears hhears hfirst hunmarked⟩
    rw [hretried, hplain]
    refine sendRetrying_of_settled fun response hresponse => ?_
    rw [Service.send_of_hears hhears] at hresponse
    exact (Text.occursIn_iff _ _).mpr (hmarked response (Service.response_eq_ok_iff.mp hresponse))
  · rw [hretried, hplain]
    exact ⟨sendOnce_of_deaf hdeaf, sendRetrying_of_deaf hdeaf⟩

/-- A device that is busy at first: the program succeeds both times, with the first response and
with the second. -/
theorem forward_with_and_without_retry_busy :
    let environment : Environment := fun _ => none
    let words : List Text := ["--connect", "tcp/10.0.0.1:7447", "frameCfg", "0"].map String.toList
    let service : Service := ⟨defaultService,
      [.answer (Utf8.encode "busy".toList), .answer (Utf8.encode "Done".toList)], true, []⟩
    let network : Network := { Network.absent with
      services := [("tcp/10.0.0.1:7447".toList, service)] }
    let surroundings : Surroundings := ⟨fun _ => .ok (.ofBytes []), fun _ => .error [], network⟩
    let o : ForwardOptions := ⟨defaultService, 30000, false,
      ⟨.peer, ["tcp/10.0.0.1:7447".toList], [], false⟩, ["frameCfg", "0"].map String.toList⟩
    let plain := forwardMain surroundings environment words
    let retried := forwardMain surroundings environment ("--retry".toList :: words)
    let payload : Text := "frameCfg 0".toList
    parse environment words = .ok o ∧ o.session.openIn network = .ok (some service) ∧
      ShowsOnce plain [] payload (some "busy".toList) ∧
      ShowsAgain retried [] payload (some "Done".toList) ∧ retried.status = 0 := by
  intro environment words service network surroundings o plain retried payload
  have hparse : parse environment words = .ok o := by decide +kernel
  have hopen : o.session.openIn network = .ok (some service) := by decide +kernel
  have hhears : service.hears o.service = true := by decide +kernel
  obtain ⟨hwithout, hwith, hheard, -⟩ :=
    forward_with_and_without_retry o surroundings (some service) hopen
  obtain ⟨hplain, hretry⟩ := hwithout environment words hparse
  have hretried := hwith environment _ hretry
  obtain ⟨honce, -, hagain⟩ := hheard service rfl hhears
  have hfirst : service.nextReply.text? = some "busy".toList := by decide +kernel
  have hsecond : (service.take payload).nextReply.text? = some "Done".toList := by decide +kernel
  have hshows := hagain _ hfirst (by decide +kernel)
  rw [hfirst, ← hplain] at honce
  rw [← hretried] at hshows
  refine ⟨hparse, hopen, honce, hsecond ▸ hshows, ?_⟩
  exact (hshows.of_marked _ hsecond (List.infix_refl _)).1

end ForwardOptions

end RadarProfile
