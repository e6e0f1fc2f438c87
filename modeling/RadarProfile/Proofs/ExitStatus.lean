import RadarProfile.Program.Configure
import RadarProfile.Proofs.Framing
import RadarProfile.Proofs.Queries

set_option autoImplicit false

/-! # What the exit status says

A profile is configured at an outlet: an endpoint in the state in which a run finds it, and
what has been received outside in each state. The options open one of three outlets, or none
(`ConfigureOptions.Opens`). The exit status says whether all lines were read and carried out
there, and what was received are the commands of the profile, or the first of them
(`ConfigureOptions.status_tells_outcome`). -/

namespace RadarProfile

/-! ## The commands of a profile -/

def commandsIn (items : List Item) : List Text :=
  items.filterMap fun item => item.toOption.bind Line.command?

theorem commandsIn_map_ok (lines : List Line) :
    commandsIn (lines.map .ok) = lines.filterMap Line.command? := by
  rw [commandsIn, List.filterMap_map]
  rfl

namespace ByteStream

inductive ReadsAs : ByteStream → List Line → Prop where
  | ofChunks {chunks : List Chunk} {lines : List Line}
      (read_eq : Reader.read chunks = lines.map .ok) : ReadsAs (.ofChunks chunks) lines

def commands : ByteStream → List Text
  | ofChunks chunks => commandsIn (Reader.read chunks)
  | stuck _ => []

variable {stream : ByteStream} {lines : List Line}

/-- Who gives up at the first fault sees lines only if there is no fault. -/
theorem items_eq_iff : stream.items 1 = lines.map .ok ↔ stream.ReadsAs lines := by
  constructor
  · intro h
    cases stream with
    | ofChunks chunks => exact .ofChunks (Reader.eq_of_untilFaults_eq h)
    | stuck fault =>
        cases lines with
        | nil => cases h
        | cons line lines => cases h
  · rintro ⟨hread⟩
    rw [items, hread, Reader.untilFaults_map_ok]

theorem ReadsAs.commands_eq (h : stream.ReadsAs lines) :
    stream.commands = lines.filterMap Line.command? := by
  obtain ⟨hread⟩ := h
  rw [commands, hread, commandsIn_map_ok]

/-- What a run comes to is among the first commands of a profile. -/
theorem commandsReached_prefix (stream : ByteStream) :
    commandsReached (stream.items 1) <+: stream.commands := by
  cases stream with
  | stuck fault => exact List.nil_prefix
  | ofChunks chunks =>
      rw [items, commands]
      induction Reader.read chunks with
      | nil => exact List.nil_prefix
      | cons item rest ih =>
          cases item with
          | error fault => exact List.nil_prefix
          | ok line =>
              rw [Reader.untilFaults, commandsReached]
              cases hspoken : line.command? with
              | none =>
                  rw [commandsIn, List.filterMap_cons_none (by exact hspoken)]
                  exact ih
              | some command =>
                  rw [commandsIn, List.filterMap_cons_some (by exact hspoken)]
                  dsimp only
                  cases parametersOf command with
                  | error fault => exact List.cons_prefix_cons.mpr ⟨rfl, List.nil_prefix⟩
                  | ok parameters => exact List.cons_prefix_cons.mpr ⟨rfl, ih⟩

end ByteStream

/-! ## Runs of a profile -/

namespace Endpoint

variable {σ : Type} {endpoint : Endpoint σ}

/-- A record of more commands is one of fewer. -/
theorem Records.of_clean {listens : σ → Prop} {clean clean' : Text → Prop}
    {received : σ → List Text} (h : endpoint.Records listens clean received)
    (hclean : ∀ command, clean' command → clean command) :
    endpoint.Records listens clean' received where
  received_send hstate hcommand := h.received_send hstate (hclean _ hcommand)
  listens_send hstate hcommand := h.listens_send hstate (hclean _ hcommand)

/-- Nothing can be carried out at a deaf endpoint but lines without a command. -/
theorem IsDeaf.commands_eq_nil {marker : Text} {lines : List Line} {state after : σ}
    {turns : List Turn} (h : endpoint.IsDeaf state)
    (hlines : endpoint.Performs marker lines state turns after) :
    lines.filterMap Line.command? = [] := by
  induction hlines with
  | nil => rfl
  | passOver silent _ ih => rw [List.filterMap_cons_none silent, ih h]
  | turn _ accepted _ _ _ => exact absurd accepted h.not_accepts

end Endpoint

namespace Driver

variable {σ τ : Type} (d : Driver σ τ) {state : σ}

theorem exists_ok_iff (profile : ByteStream) (state : σ) (stored : τ) :
    (∃ summary, (d.run (.ofStream profile) state stored).result = .ok summary) ↔
      ∃ lines, profile.ReadsAs lines ∧
        ∃ turns after, d.endpoint.Performs d.marker lines state turns after := by
  constructor
  · rintro ⟨summary, hsummary⟩
    obtain ⟨lines, turns, after, hitems, hlines⟩ := d.performs_of_ok hsummary
    exact ⟨lines, ByteStream.items_eq_iff.mp hitems, turns, after, hlines⟩
  · rintro ⟨lines, hread, turns, after, hlines⟩
    have hitems : (Source.ofStream profile).items = lines.map .ok :=
      ByteStream.items_eq_iff.mpr hread
    exact ⟨_, (d.run_of_performs hitems hlines stored).result_eq⟩

/-- **What is received of a profile** are the commands that a run dispatches, each once or twice
in a row: the first of its commands, and all of them if the run succeeds. -/
theorem exists_received {listens : σ → Prop} {received : σ → List Text}
    (h : d.endpoint.Records listens ('\n' ∉ ·) received) (hstate : listens state)
    (profile : ByteStream) (stored : τ) :
    let run := d.run (.ofStream profile) state stored
    ∃ commands new, WithRetries commands new ∧
      received run.endpoint = received state ++ new ∧ commands <+: profile.commands ∧
      ((∃ summary, run.result = .ok summary) → commands = profile.commands) := by
  intro run
  have hlines : ∀ line, .ok line ∈ (Source.ofStream profile).items → ∀ command,
      line.command? = some command → '\n' ∉ command :=
    fun line hline command hspoken =>
      (ByteStream.wellFramed_of_mem_items hline hspoken).no_newline
  refine ⟨_, _, d.withRetries_run _ _ _, d.received_run h hstate hlines stored, ?_, ?_⟩
  · exact (DryRun.dispatches_prefix_commandsReached d _ _ _).trans
      profile.commandsReached_prefix
  · rintro ⟨summary, hsummary⟩
    obtain ⟨lines, turns, after, hitems, hperforms⟩ := d.performs_of_ok hsummary
    rw [(d.run_of_performs hitems hperforms stored).dispatches_eq, hperforms.commands,
      (ByteStream.items_eq_iff.mp hitems).commands_eq]

end Driver

/-- **In a dry run** lines are carried out exactly if their commands can be converted. -/
theorem DryRun.performs_iff {marker : Text} {lines : List Line} {count : Nat} :
    (∃ turns after, (endpoint marker).Performs marker lines count turns after) ↔
      ∀ line ∈ lines, ∀ command, line.command? = some command →
        ∃ parameters, parametersOf command = .ok parameters := by
  constructor
  · rintro ⟨turns, after, hlines⟩ line hline command hspoken
    exact hlines.converted_of_mem hline hspoken
  · intro h
    have hrun : ∃ summary, ((driver (Store.keeping []) marker).run (.ofItems (lines.map .ok))
        count []).result = .ok summary := by
      rw [run_ok_iff]
      intro item hitem
      obtain ⟨line, hline, rfl⟩ := List.mem_map.mp hitem
      exact ⟨line, rfl, h line hline⟩
    obtain ⟨summary, hsummary⟩ := hrun
    obtain ⟨lines', turns, after, hitems, hlines⟩ := Driver.performs_of_ok _ hsummary
    obtain rfl : lines = lines' := (List.map_inj_right fun _ _ => Except.ok.inj).mp hitems
    exact ⟨turns, after, hlines⟩

/-! ## Outlets -/

/-- What commands go to, as a run finds it: an endpoint with its state, and what has been
received outside in each state. -/
structure Outlet where
  {σ : Type}
  endpoint : Endpoint σ
  state : σ
  receipts : σ → List Receipt

namespace Outlet

/-- The lines are carried out one after the other: each command is accepted within two sends,
and its parameters are converted. -/
def CarriesOut (outlet : Outlet) (marker : Text) (lines : List Line) : Prop :=
  ∃ turns after, outlet.endpoint.Performs marker lines outlet.state turns after

/-- Each command of one line that is sent is received outside, or nobody is there. -/
def Delivers (outlet : Outlet) (receipt : Text → Receipt) : Prop :=
  (∃ listens received, outlet.endpoint.Records listens ('\n' ∉ ·) received ∧
      listens outlet.state ∧ ∀ state, outlet.receipts state = (received state).map receipt) ∨
    outlet.endpoint.IsDeaf outlet.state

/-- **What comes of a profile at an outlet**: its commands in order are received, or the first
of them, each once or twice in a row; all of them if the run succeeds. -/
theorem exists_receipts {outlet : Outlet} {receipt : Text → Receipt}
    (h : outlet.Delivers receipt) {τ : Type} (store : Store τ) (marker : Text)
    (profile : ByteStream) (stored : τ) :
    let run := (Driver.mk outlet.endpoint store marker).run (.ofStream profile) outlet.state
      stored
    ∃ commands new, WithRetries commands new ∧
      outlet.receipts run.endpoint = outlet.receipts outlet.state ++ new.map receipt ∧
      commands <+: profile.commands ∧
      ((∃ summary, run.result = .ok summary) → commands = profile.commands) := by
  intro run
  rcases h with ⟨listens, received, hrecords, hstate, hreceipts⟩ | hdeaf
  · obtain ⟨commands, new, hretries, hreceived, hprefix, hall⟩ :=
      (Driver.mk outlet.endpoint store marker).exists_received hrecords hstate profile stored
    refine ⟨commands, new, hretries, ?_, hprefix, hall⟩
    rw [hreceipts, hreceived, List.map_append, hreceipts]
  · -- nothing is received, and there can be no command if the run succeeds
    have hrun : run.endpoint = outlet.state := Driver.endpoint_run_of_isDeaf _ hdeaf _ stored
    refine ⟨[], [], .nil, ?_, List.nil_prefix, fun hok => ?_⟩
    · rw [hrun, List.map_nil, List.append_nil]
    · obtain ⟨lines, hread, turns, after, hperforms⟩ := (Driver.exists_ok_iff _ _ _ _).mp hok
      rw [hread.commands_eq, hdeaf.commands_eq_nil hperforms]

end Outlet

theorem Serial.delivers (deadline : Nat) (device : Serial.Device) :
    Outlet.Delivers ⟨Serial.endpoint deadline, device, Serial.Device.receipts⟩ .line := by
  cases hgone : device.isGone with
  | false => exact Or.inl ⟨_, _, Serial.records deadline, hgone, fun _ => rfl⟩
  | true => exact Or.inr (Serial.isDeaf_of_isGone deadline hgone)

theorem Service.delivers (name : Text) (reached : Option Service) :
    Outlet.Delivers ⟨Service.endpoint name, reached, Service.receipts⟩ .query := by
  cases hhears : reached.any (·.hears name) with
  | false => exact Or.inr (Service.isDeaf hhears)
  | true =>
      refine Or.inl ⟨_, _, (Service.records name).of_clean fun _ _ => trivial, ?_, ?_⟩
      · cases reached with
        | none => cases hhears
        | some service => exact ⟨service, rfl, hhears⟩
      · intro state
        cases state with
        | none => rfl
        | some service => rfl

namespace ConfigureOptions

/-- The options open an outlet: that of a dry run, or after a session the serial port that
is named, or else the service. -/
inductive Opens (o : ConfigureOptions) (surroundings : Surroundings) : Outlet → Prop where
  | dryRun (dry : o.dryRun = true) :
      Opens o surroundings ⟨DryRun.endpoint o.successMarker, 0, fun _ => []⟩
  | port {reached : Option Service} {path : Text} {device : Serial.Device}
      (live : o.dryRun = false)
      (session : o.session.openIn surroundings.network = .ok reached)
      (named : o.serial = some path)
      (opened : Serial.openPort surroundings.ports path = .ok device) :
      Opens o surroundings ⟨Serial.endpoint o.queryTimeout, device, Serial.Device.receipts⟩
  | service {reached : Option Service} (live : o.dryRun = false)
      (session : o.session.openIn surroundings.network = .ok reached)
      (unnamed : o.serial = none) :
      Opens o surroundings ⟨Service.endpoint o.service, reached, Service.receipts⟩

def receipt (o : ConfigureOptions) : Text → Receipt :=
  if o.serial.isSome then .line else .query

variable {o : ConfigureOptions} {surroundings : Surroundings} {outlet : Outlet}

/-! ### The three ways of a run -/

theorem runProfile_of_dryRun (dry : o.dryRun = true) (profile : ByteStream) :
    o.runProfile surroundings profile = o.dryRunOf profile := by
  rw [runProfile, if_pos dry]

theorem runProfile_of_port {reached : Option Service} {path : Text} (live : o.dryRun = false)
    (session : o.session.openIn surroundings.network = .ok reached)
    (named : o.serial = some path) (profile : ByteStream) :
    o.runProfile surroundings profile = o.overPort surroundings path profile := by
  simp only [runProfile, live, Bool.false_eq_true, if_false, session, named]

theorem runProfile_of_service {reached : Option Service} (live : o.dryRun = false)
    (session : o.session.openIn surroundings.network = .ok reached)
    (unnamed : o.serial = none) (profile : ByteStream) :
    o.runProfile surroundings profile = o.overSession reached profile := by
  simp only [runProfile, live, Bool.false_eq_true, if_false, session, unnamed]

/-- Where no outlet opens, the configuration fails before anything is sent. -/
theorem opens_or_refused (o : ConfigureOptions) (surroundings : Surroundings) :
    (∃ outlet, o.Opens surroundings outlet) ∨ ∀ profile, ∃ error,
      (o.runProfile surroundings profile).result = .error error ∧
      (o.runProfile surroundings profile).received = [] := by
  cases hdry : o.dryRun with
  | true => exact Or.inl ⟨_, .dryRun hdry⟩
  | false =>
      cases hsession : o.session.openIn surroundings.network with
      | error fault =>
          refine Or.inr fun profile => ⟨.session fault, ?_⟩
          simp only [runProfile, hdry, Bool.false_eq_true, if_false, hsession, refused, and_self]
      | ok reached =>
          cases hserial : o.serial with
          | none => exact Or.inl ⟨_, .service hdry hsession hserial⟩
          | some path =>
              cases hport : Serial.openPort surroundings.ports path with
              | ok device => exact Or.inl ⟨_, .port hdry hsession hserial hport⟩
              | error error =>
                  refine Or.inr fun profile => ⟨error, ?_⟩
                  rw [runProfile_of_port hdry hsession hserial]
                  simp only [overPort, hport, refused, and_self]

/-- Where an outlet opens, the configuration is a run of the profile at it. -/
theorem runProfile_of_opens (h : o.Opens surroundings outlet) (profile : ByteStream) :
    ∃ (τ : Type) (store : Store τ) (stored : τ),
      let done := o.runProfile surroundings profile
      let run := (Driver.mk outlet.endpoint store o.successMarker).run (.ofStream profile)
        outlet.state stored
      done.result = run.result ∧ done.received = outlet.receipts run.endpoint := by
  cases h with
  | dryRun dry =>
      rw [runProfile_of_dryRun dry]
      exact ⟨Unit, Store.logging o.namespaceName, (), rfl, rfl⟩
  | port live session named opened =>
      rw [runProfile_of_port live session named, overPort, opened]
      exact ⟨_, Publisher.store o.namespaceName, [], rfl, rfl⟩
  | service live session unnamed =>
      rw [runProfile_of_service live session unnamed]
      exact ⟨_, Publisher.store o.namespaceName, [], rfl, rfl⟩

/-- At a live outlet commands are received, as lines or as queries. -/
theorem delivers_of_opens (live : o.dryRun = false) (h : o.Opens surroundings outlet) :
    outlet.Delivers o.receipt := by
  cases h with
  | dryRun dry => rw [live] at dry; cases dry
  | @port _ _ device _ _ named _ =>
      rw [receipt, named]
      exact Serial.delivers o.queryTimeout device
  | @service reached _ _ unnamed =>
      rw [receipt, unnamed]
      exact Service.delivers o.service reached

/-! ### The program -/

theorem configure_of_file {profile : ByteStream}
    (h : surroundings.openFile o.config = .ok profile) :
    o.configure surroundings = o.runProfile surroundings profile := by
  rw [configure, h]

theorem configure_of_no_file {fault : Fault}
    (h : surroundings.openFile o.config = .error fault) :
    o.configure surroundings = refused (.opening o.config fault) [] := by
  rw [configure, h]

/-- The exit status is zero exactly if the configuration succeeds, and one if it fails. -/
theorem status_main (o : ConfigureOptions) (surroundings : Surroundings) :
    ((o.main surroundings).status = 0 ∨ (o.main surroundings).status = 1) ∧
      ((o.main surroundings).status = 0 ↔
        ∃ summary, (o.configure surroundings).result = .ok summary) := by
  cases hresult : (o.configure surroundings).result with
  | ok summary =>
      have hstatus : (o.main surroundings).status = 0 := by simp only [main, hresult]
      exact ⟨Or.inl hstatus, fun _ => ⟨summary, rfl⟩, fun _ => hstatus⟩
  | error error =>
      have hstatus : (o.main surroundings).status = 1 := by simp only [main, hresult]
      refine ⟨Or.inr hstatus, fun hzero => ?_, fun ⟨_, hsummary⟩ => nomatch hsummary⟩
      rw [hstatus] at hzero
      cases hzero

theorem configure_ok_iff (o : ConfigureOptions) (surroundings : Surroundings) :
    (∃ summary, (o.configure surroundings).result = .ok summary) ↔
      ∃ profile lines outlet, surroundings.openFile o.config = .ok profile ∧
        profile.ReadsAs lines ∧ o.Opens surroundings outlet ∧
        outlet.CarriesOut o.successMarker lines := by
  constructor
  · rintro ⟨summary, hsummary⟩
    cases hfile : surroundings.openFile o.config with
    | error fault =>
        rw [configure_of_no_file hfile] at hsummary
        cases hsummary
    | ok profile =>
        rw [configure_of_file hfile] at hsummary
        rcases o.opens_or_refused surroundings with ⟨outlet, hopens⟩ | hrefused
        · obtain ⟨τ, store, stored, hresult, -⟩ := runProfile_of_opens hopens profile
          rw [hresult] at hsummary
          obtain ⟨lines, hread, hlines⟩ := (Driver.exists_ok_iff _ _ _ _).mp ⟨summary, hsummary⟩
          exact ⟨profile, lines, outlet, rfl, hread, hopens, hlines⟩
        · obtain ⟨error, herror, -⟩ := hrefused profile
          rw [herror] at hsummary
          cases hsummary
  · rintro ⟨profile, lines, outlet, hfile, hread, hopens, hlines⟩
    obtain ⟨τ, store, stored, hresult, -⟩ := runProfile_of_opens hopens profile
    rw [configure_of_file hfile, hresult]
    exact (Driver.exists_ok_iff _ _ _ _).mpr ⟨lines, hread, hlines⟩

theorem configure_ok_iff_of_dryRun (dry : o.dryRun = true) (surroundings : Surroundings) :
    (∃ summary, (o.configure surroundings).result = .ok summary) ↔
      ∃ profile lines, surroundings.openFile o.config = .ok profile ∧
        profile.ReadsAs lines ∧ ∀ line ∈ lines, ∀ command, line.command? = some command →
          ∃ parameters, parametersOf command = .ok parameters := by
  rw [configure_ok_iff]
  constructor
  · rintro ⟨profile, lines, outlet, hfile, hread, -, turns, after, hlines⟩
    exact ⟨profile, lines, hfile, hread,
      fun line hline command hspoken => hlines.converted_of_mem hline hspoken⟩
  · rintro ⟨profile, lines, hfile, hread, hconverted⟩
    exact ⟨profile, lines, _, hfile, hread, .dryRun dry, DryRun.performs_iff.mpr hconverted⟩

/-- Nothing is received in a dry run, wherever commands would go without it. -/
theorem received_of_dryRun (dry : o.dryRun = true) (surroundings : Surroundings) :
    (o.configure surroundings).received = [] := by
  cases hfile : surroundings.openFile o.config with
  | error fault =>
      rw [configure_of_no_file hfile]
      rfl
  | ok profile =>
      rw [configure_of_file hfile, runProfile_of_dryRun dry]
      rfl

/-- Nothing is received where no outlet opens. -/
theorem received_of_not_opens (h : ∀ outlet, ¬ o.Opens surroundings outlet) :
    (o.configure surroundings).received = [] := by
  cases hfile : surroundings.openFile o.config with
  | error fault =>
      rw [configure_of_no_file hfile]
      rfl
  | ok profile =>
      rcases o.opens_or_refused surroundings with ⟨outlet, hopens⟩ | hrefused
      · exact absurd hopens (h outlet)
      · obtain ⟨error, -, hnone⟩ := hrefused profile
        rw [configure_of_file hfile, hnone]

theorem received_of_opens (live : o.dryRun = false) {profile : ByteStream}
    (hfile : surroundings.openFile o.config = .ok profile)
    (hopens : o.Opens surroundings outlet) :
    ∃ commands new, WithRetries commands new ∧
      (o.configure surroundings).received =
        outlet.receipts outlet.state ++ new.map o.receipt ∧
      commands <+: profile.commands ∧
      ((∃ summary, (o.configure surroundings).result = .ok summary) →
        commands = profile.commands) := by
  obtain ⟨τ, store, stored, hresult, hreceived⟩ := runProfile_of_opens hopens profile
  rw [configure_of_file hfile, hresult, hreceived]
  exact Outlet.exists_receipts (delivers_of_opens live hopens) store o.successMarker profile
    stored

variable {environment : Environment} {words : List Text}

/-- **The exit status is truthful.** It is zero exactly if the profile and an outlet open, no
line of the profile is lost, and all lines are carried out; in a dry run this depends on
the profile alone. Otherwise it is one. What a live outlet receives are the commands of
the profile in order, or the first of them, each once or twice in a row; where the status
is zero it receives all. Nothing is received in a dry run, or where the profile or the outlet
does not open. -/
theorem status_tells_outcome (h : parse environment words = .ok o)
    (surroundings : Surroundings) :
    let exit := configureMain surroundings environment words
    (exit.status = 0 ∨ exit.status = 1) ∧
      (exit.status = 0 ↔
        ∃ profile lines outlet, surroundings.openFile o.config = .ok profile ∧
          profile.ReadsAs lines ∧ o.Opens surroundings outlet ∧
          outlet.CarriesOut o.successMarker lines) ∧
      (o.dryRun = true → exit.received = [] ∧ (exit.status = 0 ↔
        ∃ profile lines, surroundings.openFile o.config = .ok profile ∧
          profile.ReadsAs lines ∧ ∀ line ∈ lines, ∀ command, line.command? = some command →
            ∃ parameters, parametersOf command = .ok parameters)) ∧
      (∀ fault, surroundings.openFile o.config = .error fault → exit.received = []) ∧
      ((∀ outlet, ¬ o.Opens surroundings outlet) → exit.received = []) ∧
      (o.dryRun = false → ∀ profile outlet, surroundings.openFile o.config = .ok profile →
        o.Opens surroundings outlet →
          ∃ commands new, WithRetries commands new ∧
            exit.received = outlet.receipts outlet.state ++ new.map o.receipt ∧
            commands <+: profile.commands ∧
            (exit.status = 0 → commands = profile.commands)) := by
  intro exit
  have hexit : exit = o.main surroundings := by
    show configureMain surroundings environment words = _
    rw [configureMain, h]
  have hreceived : exit.received = (o.configure surroundings).received := by rw [hexit]; rfl
  obtain ⟨hstatus, hzero⟩ := o.status_main surroundings
  rw [← hexit] at hstatus hzero
  rw [hreceived]
  refine ⟨hstatus, hzero.trans (o.configure_ok_iff surroundings), fun dry => ⟨?_, ?_⟩,
    fun fault hfile => ?_, fun hclosed => ?_, fun live profile outlet hfile hopens => ?_⟩
  · exact received_of_dryRun dry surroundings
  · exact hzero.trans (configure_ok_iff_of_dryRun dry surroundings)
  · rw [configure_of_no_file hfile]
    rfl
  · exact received_of_not_opens hclosed
  · obtain ⟨commands, new, hretries, hnew, hprefix, hall⟩ :=
      received_of_opens live hfile hopens
    exact ⟨commands, new, hretries, hnew, hprefix, fun hok => hall (hzero.mp hok)⟩

/-- A comment, a command that the device asks for again, and a token that is mistyped. The
device receives both commands of the profile, but the status is one. -/
theorem status_tells_outcome_mistyped :
    let environment : Environment := fun name =>
      if name = "SERIAL".toList then some "/dev/ttyACM0".toList else none
    let words : List Text := ["radar.cfg".toList]
    let profile : ByteStream :=
      .ofBytes "% radar\nsensorStop\nchannelCfg 1x 3\n".toUTF8.toList
    let device : Serial.Device := ⟨[.prints [0x3F]], false, []⟩
    let surroundings : Surroundings := ⟨fun _ => .ok profile, fun _ => .ok device, .absent⟩
    let o : ConfigureOptions := ⟨"radar.cfg".toList, defaultService, defaultNamespace,
      RadarProfile.successMarker, 100000, 30000, some "/dev/ttyACM0".toList, 115200, false,
      .upTo .info, false, ⟨.peer, [], [], false⟩⟩
    let exit := configureMain surroundings environment words
    parse environment words = .ok o ∧ exit.status = 1 ∧
      exit.received = [.line "sensorStop".toList, .line "sensorStop".toList,
        .line "channelCfg 1x 3".toList] ∧
      (∃ commands new, WithRetries commands new ∧ exit.received = new.map .line ∧
        commands <+: ["sensorStop".toList, "channelCfg 1x 3".toList]) ∧
      ¬ ∃ profile' lines outlet, surroundings.openFile o.config = .ok profile' ∧
        profile'.ReadsAs lines ∧ o.Opens surroundings outlet ∧
        outlet.CarriesOut o.successMarker lines := by
  intro environment words profile device surroundings o exit
  have hparse : parse environment words = .ok o := by decide +kernel
  have hstatus : exit.status = 1 := by decide +kernel
  have hreceived : exit.received = [.line "sensorStop".toList, .line "sensorStop".toList,
    .line "channelCfg 1x 3".toList] := by decide +kernel
  have hcommands : profile.commands = ["sensorStop".toList, "channelCfg 1x 3".toList] := by
    decide +kernel
  have hsession : o.session.openIn surroundings.network = .ok none := by decide +kernel
  have hopens : o.Opens surroundings
      ⟨Serial.endpoint o.queryTimeout, device, Serial.Device.receipts⟩ :=
    .port rfl hsession rfl (by decide +kernel)
  obtain ⟨_, hzero, _, _, _, hlive⟩ := status_tells_outcome hparse surroundings
  obtain ⟨commands, new, hretries, hnew, hprefix, _⟩ := hlive rfl profile _ rfl hopens
  refine ⟨hparse, hstatus, hreceived, ⟨commands, new, hretries, hnew, ?_⟩, fun hcarried => ?_⟩
  · rw [← hcommands]
    exact hprefix
  · have hok : exit.status = 0 := hzero.mpr hcarried
    rw [hstatus] at hok
    cases hok

end ConfigureOptions

end RadarProfile
