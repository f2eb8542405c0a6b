import Aetheris.Lib.Gather
import Aetheris.Lib.SoleRun
import Aetheris.ScannerPages

namespace Aetheris.ScannerGather

open Lib Coroutine Gather Money Clock Enums OrderIdentity PaperRecords Scanner
open MarketModels (CandleSeries Symbol Ticker)

/-- What a call of the market data port may raise. -/
inductive PortFailure
  | exchange (error : ExchangeError)
  | other (detail : String)

inductive PortEffect : Type → Type 1
  | getSymbols : PortEffect (List Symbol)
  | getAllTickers : PortEffect (Observation (List Ticker))
  | getKlines (symbol : String) (timeframe : Timeframe) (limit : Nat) : PortEffect (Observation CandleSeries)

inductive ScanEffect : Type → Type 1
  | port {β : Type} (f : PortEffect β) : ScanEffect β
  | utcnow : ScanEffect Timestamp
  | gather (permits : Nat) (bodies : List (Coroutine (Limited PortEffect) PortFailure ScannerRow)) :
      ScanEffect (List ScannerRow)

abbrev ScanM := Coroutine ScanEffect PortFailure

/-- What a pool of rows is attached. -/
inductive Attachment
  | metrics | setups
  deriving DecidableEq

/-- Candles, or the error of an exchange that did not give them. -/
def candles (symbol : String) (timeframe : Timeframe) (limit : Nat) :
    Coroutine PortEffect PortFailure (Except ExchangeError (Observation CandleSeries)) := do
  match ← (perform (.getKlines symbol timeframe limit)).caught with
  | .ok observation => return .ok observation
  | .error (.exchange exc) => return .error exc
  | .error failure => raise failure

section Service

/-- How many upstream requests may be open at once. -/
structure Concurrency where
  metricConcurrency : Nat
  one_le : 1 ≤ metricConcurrency

variable (service : ScannerService) (concurrency : Concurrency)

/-- The service where the exchange gives this answer for candles. -/
def answering (answer : Except ExchangeError (Observation CandleSeries)) : ScannerService :=
  { service with exchange := { service.exchange with getKlines := fun _ _ _ => answer } }

def candleLimit : Attachment → Nat
  | .metrics => service.settings.candleLimit
  | .setups => service.settings.setupCandleLimit

/-- What the candles of a row make of it. -/
def attached (attachment : Attachment) (timeframe : Timeframe) (now : Timestamp) (row : ScannerRow) : ScannerRow :=
  match attachment with
  | .metrics => service.enrichMetrics timeframe now row
  | .setups => service.enrichSetup timeframe now row

def enrich (attachment : Attachment) (timeframe : Timeframe) (now : Timestamp) (row : ScannerRow) :
    Coroutine (Limited PortEffect) PortFailure ScannerRow := do
  let answer ← withPermit (candles row.symbol timeframe (candleLimit service attachment))
  return attached (answering service answer) attachment timeframe now row

/-- Only statistics are capped, and rows beyond the cap are kept as they are. -/
def capped (attachment : Attachment) (rows : List ScannerRow) : List ScannerRow × List ScannerRow :=
  match attachment with
  | .metrics => rows.splitAt service.settings.maxMetricSymbols
  | .setups => (rows, [])

def attach (attachment : Attachment) (rows : List ScannerRow) (timeframe : Timeframe) : ScanM (List ScannerRow) :=
  match rows with
  | [] => return []
  | rows => do
      let now ← perform .utcnow
      let (capped, beyond) := capped service attachment rows
      let enriched ← perform (.gather concurrency.metricConcurrency (capped.map (enrich service attachment timeframe now)))
      return enriched ++ beyond

def rankPool (rows : List ScannerRow) (query : ScanQuery) (poolSize : Nat) (attachment : Attachment) :
    ScanM (List ScannerRow × Nat) := do
  let candidates := (sort rows .quoteVolume24h true).take poolSize
  let scored ← attach service concurrency attachment candidates query.timeframe
  let scored := if query.filters.needsMetrics then scored.filter (passesMetricFilters query.filters) else scored
  return (sort scored query.sortBy query.descending, candidates.length)

def rank (rows : List ScannerRow) (query : ScanQuery) : ScanM RankedRows := do
  if query.needsSetups then
    let (rows, setupPool) ←
      rankPool service concurrency rows query (min service.settings.setupPoolSize service.settings.maxMetricSymbols) .setups
    return ⟨rows, some setupPool, some setupPool, .strategyPool⟩
  else if query.needsPool then
    let (rows, poolSize) ←
      rankPool service concurrency rows query (min service.settings.candidatePoolSize service.settings.maxMetricSymbols)
        .metrics
    return ⟨rows, some poolSize, none, .liquidityPool⟩
  else return ⟨sort rows query.sortBy query.descending, none, none, .fullUniverse⟩

/-- Without a pool statistics are an extra, for the rows that are returned. -/
def enrichPage (query : ScanQuery) (pageRows : List ScannerRow) : ScanM (List ScannerRow) :=
  if query.enriches then attach service concurrency .metrics pageRows query.timeframe else return pageRows

variable [Runtime]

def scan (query : ScanQuery) : ScanM ScannerPage := do
  let started ← perform .utcnow
  let symbols ← perform (.port .getSymbols)
  let observation ← perform (.port .getAllTickers)
  let now ← perform .utcnow
  let rows := (service.buildRows symbols observation now).filter (passesTickerFilters query.filters)
  let ranked ← rank service concurrency rows query
  let pageRows ← enrichPage service concurrency query (paginate ranked.rows query.page query.pageSize)
  return {
    rows := pageRows
    page := query.page
    pageSize := query.pageSize
    totalRows := ranked.rows.length
    universeSize := symbols.length
    rankingScope := ranked.scope
    candidatePoolSize := ranked.poolSize
    setupPoolSize := ranked.setupPool
    sortBy := query.sortBy.name
    direction := if query.descending then "desc" else "asc"
    tickerSource := observation.source
    tickerStatus := observation.status
    tickerEventTs := observation.eventTs.map isoformat
    tickerAgeSeconds := observation.ageSeconds
    scannedAt := isoformat started }

end Service

/-! ### One gather -/

section Gathering

variable {W : Type} {exec : Semantics PortEffect PortFailure W} (service : ScannerService) (concurrency : Concurrency)
  (attachment : Attachment) (timeframe : Timeframe) (now : Timestamp)

/-- What comes of a row, by what its own request was answered. -/
def Settled (exec : Semantics PortEffect PortFailure W) (row : ScannerRow) (r : Except PortFailure ScannerRow) : Prop :=
  ∃ answer v v', exec (.getKlines row.symbol timeframe (candleLimit service attachment)) v answer v' ∧
    r = match answer with
      | .ok observation => .ok (attached (answering service (.ok observation)) attachment timeframe now row)
      | .error (.exchange exc) => .ok (attached (answering service (.error exc)) attachment timeframe now row)
      | .error failure => .error failure

/-- The body of a row, but for its permit. -/
def asked (row : ScannerRow) : Coroutine PortEffect PortFailure ScannerRow := do
  let answer ← candles row.symbol timeframe (candleLimit service attachment)
  return attached (answering service answer) attachment timeframe now row

theorem enrich_eq (row : ScannerRow) :
    enrich service attachment timeframe now row = withPermit (asked service attachment timeframe now row) :=
  withPermit_map _ _

theorem settled_of_left {row : ScannerRow} {r : Except PortFailure ScannerRow}
    (h : Left exec (asked service attachment timeframe now row) (finished r)) :
    Settled service attachment timeframe now exec row r := by
  rcases left_await h with hawait | ⟨w, answer, w', hx, hleft⟩
  · cases r <;> cases hawait
  · refine ⟨answer, w, w', hx, ?_⟩
    rcases answer with (exc | failure) | observation
    · exact finished_injective (left_finished (r := .ok _) hleft)
    · exact finished_injective (left_finished (r := .error _) hleft)
    · exact finished_injective (left_finished (r := .ok _) hleft)

variable {rows : List ScannerRow} {w : W} {b : (W × Nat) × List (Coroutine (Limited PortEffect) PortFailure ScannerRow)}

theorem shared_enrich
    (h : Relation.ReflTransGen (Together (limited exec))
      ((w, concurrency.metricConcurrency), rows.map (enrich service attachment timeframe now)) b) :
    Shared exec concurrency.metricConcurrency (rows.map (asked service attachment timeframe now)) b.1 b.2 := by
  refine shared_run h ?_
  have hbodies : rows.map (enrich service attachment timeframe now) =
      (rows.map (asked service attachment timeframe now)).map withPermit := by
    rw [List.map_map]
    exact List.map_congr_left fun row _ => enrich_eq service attachment timeframe now row
  rw [hbodies]
  exact shared_start w

/-- However the requests of a pool of rows interleave, never more of them are open than there may be, one can go
on until each row has come to what its own request was answered, and all of them do end. -/
theorem enrich_bounded (hanswers : ∀ {β : Type} (f : PortEffect β) v, ∃ r v', exec f v r v')
    (h : Relation.ReflTransGen (Together (limited exec))
      ((w, concurrency.metricConcurrency), rows.map (enrich service attachment timeframe now)) b) :
    b.2.countP asking ≤ concurrency.metricConcurrency ∧
      ((∃ next, Together (limited exec) b next) ∨ ∃ results : List (Except PortFailure ScannerRow),
        b.2 = results.map finished) ∧
      (∀ results : List (Except PortFailure ScannerRow), b.2 = results.map finished →
        List.Forall₂ (Settled service attachment timeframe now exec) rows results) ∧
      Acc (fun later earlier => Together (limited exec) earlier later) b := by
  have hshared := shared_enrich service concurrency attachment timeframe now h
  refine ⟨hshared.countP_asking, hshared.progress concurrency.one_le hanswers, fun results hended => ?_,
    (together_wellFounded (limited exec)).apply b⟩
  rw [hended] at hshared
  exact (List.forall₂_map_left_iff.mp hshared.results).imp fun _ _ hleft =>
    settled_of_left service attachment timeframe now hleft

end Gathering

/-! ### A whole scan -/

section Scanning

variable {W : Type} (exec : Semantics PortEffect PortFailure W)

/-- The clock may read anything, and a gather ends when its rows have, or when one of them raises. -/
def scanning : Semantics ScanEffect PortFailure W
  | _, .port f, w, r, w' => exec f w r w'
  | _, .utcnow, w, r, w' => w' = w ∧ ∃ now, r = .ok now
  | _, .gather permits bodies, w, r, w' => ∃ free, Gathers (limited exec) bodies (w, permits) r (w', free)

/-- What is said to have been heard of these was answered at some time. -/
def Heard (timeframe : Timeframe) (limit : Nat) (asked : List String)
    (heard : String → Except ExchangeError (Observation CandleSeries)) : Prop :=
  ∀ symbol ∈ asked, ∃ v v', exec (.getKlines symbol timeframe limit) v ((heard symbol).mapError .exchange) v'

/-- The same service over a market that stands still. -/
def onMarket (service : ScannerService) (port : MarketDataPort) : ScannerService := { service with exchange := port }

/-- It gives of these what was heard. -/
def Agrees (port : MarketDataPort) (timeframe : Timeframe) (limit : Nat) (asked : List String)
    (heard : String → Except ExchangeError (Observation CandleSeries)) : Prop :=
  ∀ symbol ∈ asked, port.getKlines symbol timeframe limit = heard symbol

/-- What is not an error of the exchange is what some call raised. -/
def Escaped (e : PortFailure) : Prop :=
  (∃ detail, e = .other detail) ∧ ∃ (β : Type) (f : PortEffect β) (v v' : W), exec f v (.error e) v'

variable {exec} (service : ScannerService) (concurrency : Concurrency)

theorem attached_over {attachment : Attachment} {timeframe : Timeframe} {row : ScannerRow} {port : MarketDataPort}
    {answer : Except ExchangeError (Observation CandleSeries)}
    (h : port.getKlines row.symbol timeframe (candleLimit service attachment) = answer) (now : Timestamp) :
    attached (onMarket service port) attachment timeframe now row =
      attached (answering service answer) attachment timeframe now row := by
  subst h
  cases attachment <;> rfl

/-- What is chosen for each of a list can be read off their keys, where these are distinct. -/
theorem exists_of_keys {α β κ γ : Type} [DecidableEq κ] {R : α → β → γ → Prop} (key : α → κ) (other : γ) {xs : List α}
    {ys : List β} (hdistinct : (xs.map key).Nodup) (h : List.Forall₂ (fun x y => ∃ z, R x y z) xs ys) :
    ∃ f : κ → γ, List.Forall₂ (fun x y => R x y (f (key x))) xs ys := by
  induction h with
  | nil => exact ⟨fun _ => other, .nil⟩
  | @cons x y xs ys hz _ ih =>
      obtain ⟨hnew, hdistinct⟩ := List.nodup_cons.mp hdistinct
      obtain ⟨z, hz⟩ := hz
      obtain ⟨f, hf⟩ := ih hdistinct
      have hothers : ∀ a ∈ xs, key a ≠ key x := fun a ha hkey => hnew (hkey ▸ List.mem_map_of_mem ha)
      refine ⟨Function.update f (key x) z, .cons ?_ (((List.forall₂_and_left xs ys).mpr ⟨hothers, hf⟩).imp ?_)⟩
      · rw [Function.update_self]
        exact hz
      · rintro a b ⟨hne, hab⟩
        rw [Function.update_of_ne hne]
        exact hab

/-- The plain one: everything at once. -/
def attachPlain (service : ScannerService) (attachment : Attachment) (rows : List ScannerRow) (timeframe : Timeframe)
    (now : Timestamp) : List ScannerRow :=
  match attachment with
  | .metrics => service.attachMetrics rows timeframe now
  | .setups => service.attachSetups rows timeframe now

theorem attachPlain_eq (attachment : Attachment) (rows : List ScannerRow) (timeframe : Timeframe) (now : Timestamp) :
    attachPlain service attachment rows timeframe now =
      (capped service attachment rows).1.map (attached service attachment timeframe now) ++
        (capped service attachment rows).2 := by
  cases attachment with
  | metrics =>
      rw [capped, List.splitAt_eq]
      rfl
  | setups => exact (List.append_nil _).symm

variable {service concurrency} {attachment : Attachment} {timeframe : Timeframe} {now : Timestamp}

/-- What a row came to where it came to a row. -/
theorem settled_ok {row out : ScannerRow} (h : Settled service attachment timeframe now exec row (.ok out)) :
    ∃ answer : Except ExchangeError (Observation CandleSeries),
      (∃ v v', exec (.getKlines row.symbol timeframe (candleLimit service attachment)) v (answer.mapError .exchange) v') ∧
        out = attached (answering service answer) attachment timeframe now row := by
  obtain ⟨(exc | failure) | observation, v, v', hx, hout⟩ := h
  · exact ⟨.error exc, ⟨v, v', hx⟩, Except.ok.inj hout⟩
  · cases hout
  · exact ⟨.ok observation, ⟨v, v', hx⟩, Except.ok.inj hout⟩

theorem escaped_of_settled {row : ScannerRow} {e : PortFailure}
    (h : Settled service attachment timeframe now exec row (.error e)) : Escaped exec e := by
  obtain ⟨(exc | failure) | observation, v, v', hx, hout⟩ := h
  · cases hout
  · cases hout
    exact ⟨⟨failure, rfl⟩, _, _, v, v', hx⟩
  · cases hout

/-- The rows of a gather are those of a market that stands still and gives what was heard. -/
theorem gathers_plain {rows outs : List ScannerRow} {w w' : W} {free : Nat}
    (hdistinct : (rows.map ScannerRow.symbol).Nodup)
    (h : Gathers (limited exec) (rows.map (enrich service attachment timeframe now)) (w, concurrency.metricConcurrency)
      (.ok outs) (w', free)) :
    ∃ heard, Heard exec timeframe (candleLimit service attachment) (rows.map ScannerRow.symbol) heard ∧
      ∀ port, Agrees port timeframe (candleLimit service attachment) (rows.map ScannerRow.symbol) heard →
        outs = rows.map (attached (onMarket service port) attachment timeframe now) := by
  obtain ⟨pool, hrun, rfl⟩ := h
  have hshared := shared_enrich service concurrency attachment timeframe now hrun
  have hpool : outs.map .ret = (outs.map Except.ok).map (finished (F := Limited PortEffect) (ε := PortFailure)) := by
    rw [List.map_map]
    rfl
  rw [hpool] at hshared
  have hsettled : List.Forall₂ (fun row out => Settled service attachment timeframe now exec row (.ok out)) rows outs :=
    (List.forall₂_map_right_iff.mp (List.forall₂_map_left_iff.mp hshared.results)).imp fun _ _ hleft =>
      settled_of_left service attachment timeframe now hleft
  obtain ⟨heard, hall⟩ :=
    exists_of_keys ScannerRow.symbol (.error .unavailable) hdistinct (hsettled.imp fun _ _ => settled_ok)
  obtain ⟨hheard, houts⟩ := (List.forall₂_and_left rows outs).mp hall
  refine ⟨heard, List.forall_mem_map.mpr hheard, fun port hagrees => ?_⟩
  have hsame :
      List.Forall₂ (fun row out => attached (onMarket service port) attachment timeframe now row = out) rows outs := by
    refine ((List.forall₂_and_left rows outs).mpr ⟨List.forall_mem_map.mp hagrees, houts⟩).imp ?_
    rintro row out ⟨hagrees, rfl⟩
    exact attached_over service hagrees now
  have heq : List.Forall₂ Eq (rows.map (attached (onMarket service port) attachment timeframe now)) outs :=
    List.forall₂_map_left_iff.mpr hsame
  exact (List.forall₂_eq_eq_eq ▸ heq).symm

theorem escaped_of_gathers {rows : List ScannerRow} {e : PortFailure} {w w' : W} {free : Nat}
    (h : Gathers (limited exec) (rows.map (enrich service attachment timeframe now)) (w, concurrency.metricConcurrency)
      (.error e) (w', free)) : Escaped exec e := by
  obtain ⟨pool, hrun, hraised⟩ := h
  have hshared := shared_enrich service concurrency attachment timeframe now hrun
  obtain ⟨c, hc, hleft⟩ := hshared.ended (r := .error e) hraised
  obtain ⟨row, _, rfl⟩ := List.mem_map.mp hc
  exact escaped_of_settled (settled_of_left service attachment timeframe now hleft)

variable (service) in
/-- Those whose candles are asked for. -/
def askedOf (attachment : Attachment) (rows : List ScannerRow) : List String :=
  (capped service attachment rows).1.map ScannerRow.symbol

/-- What is attached is what would be attached at once, over a market that stands still. -/
def AttachedPlain (exec : Semantics PortEffect PortFailure W) (service : ScannerService) (attachment : Attachment)
    (rows : List ScannerRow) (timeframe : Timeframe) (outs : List ScannerRow) : Prop :=
  ∃ now heard, Heard exec timeframe (candleLimit service attachment) (askedOf service attachment rows) heard ∧
    ∀ port, Agrees port timeframe (candleLimit service attachment) (askedOf service attachment rows) heard →
      outs = attachPlain (onMarket service port) attachment rows timeframe now

theorem capped_sublist (rows : List ScannerRow) : (capped service attachment rows).1.Sublist rows := by
  cases attachment with
  | metrics =>
      rw [capped, List.splitAt_eq]
      exact List.take_sublist _ _
  | setups => exact List.Sublist.refl rows

theorem attach_always {rows : List ScannerRow} (hdistinct : (rows.map ScannerRow.symbol).Nodup) {w : W} :
    (attach service concurrency attachment rows timeframe).Always (scanning exec) w fun r _ =>
      match r with
      | .ok outs => AttachedPlain exec service attachment rows timeframe outs
      | .error e => Escaped exec e := by
  cases rows with
  | nil =>
      refine ⟨0, fun _ => .error .unavailable, fun symbol h => ?_, fun port _ => ?_⟩
      · cases attachment with
        | metrics => simp [askedOf, capped] at h
        | setups => exact absurd h List.not_mem_nil
      · rw [attachPlain_eq]
        cases attachment <;> simp [capped]
  | cons row rows =>
      refine Always.bind (Always.perform ?_)
      rintro _ _ ⟨rfl, now, rfl⟩
      refine Always.bind (Always.perform ?_)
      rintro (e | outs) w' ⟨free, hgathers⟩
      · exact escaped_of_gathers hgathers
      · have hasked : (askedOf service attachment (row :: rows)).Nodup :=
          hdistinct.sublist ((capped_sublist (row :: rows)).map _)
        obtain ⟨heard, hheard, houts⟩ := gathers_plain hasked hgathers
        refine ⟨now, heard, hheard, fun port hagrees => ?_⟩
        rw [attachPlain_eq, houts port hagrees]
        rfl

/-- The candles that a query has attached. -/
def attachmentOf (query : ScanQuery) : Attachment := if query.needsSetups then .setups else .metrics

/-- It holds over every market that stands still and gives what was heard, of a bounded number of symbols. -/
def Plain (exec : Semantics PortEffect PortFailure W) (service : ScannerService) (query : ScanQuery)
    (P : MarketDataPort → Timestamp → Prop) : Prop :=
  ∃ now asked heard, asked.Nodup ∧ asked.length ≤ service.settings.maxMetricSymbols ∧
    Heard exec query.timeframe (candleLimit service (attachmentOf query)) asked heard ∧
    ∀ port, Agrees port query.timeframe (candleLimit service (attachmentOf query)) asked heard → P port now

theorem plain_of_attached {query : ScanQuery} {rows outs : List ScannerRow} {P : MarketDataPort → Timestamp → Prop}
    (hdistinct : (rows.map ScannerRow.symbol).Nodup)
    (hlength : (askedOf service (attachmentOf query) rows).length ≤ service.settings.maxMetricSymbols)
    (h : AttachedPlain exec service (attachmentOf query) rows query.timeframe outs)
    (hP : ∀ port now, outs = attachPlain (onMarket service port) (attachmentOf query) rows query.timeframe now → P port now) :
    Plain exec service query P := by
  obtain ⟨now, heard, hheard, hall⟩ := h
  refine ⟨now, _, heard, hdistinct.sublist ((capped_sublist rows).map _), hlength, hheard, fun port hagrees => ?_⟩
  exact hP port now (hall port hagrees)

theorem sort_distinct {rows : List ScannerRow} (hdistinct : (rows.map ScannerRow.symbol).Nodup)
    (sortBy : SortField) (descending : Bool) : ((sort rows sortBy descending).map ScannerRow.symbol).Nodup :=
  (((sort_ranked hdistinct).perm.map _).nodup_iff).mpr hdistinct

theorem rankPool_always (query : ScanQuery) {rows : List ScannerRow} (hdistinct : (rows.map ScannerRow.symbol).Nodup)
    {poolSize : Nat} (hpool : poolSize ≤ service.settings.maxMetricSymbols) {w : W} :
    (rankPool service concurrency rows query poolSize (attachmentOf query)).Always (scanning exec) w fun r _ =>
      match r with
      | .ok ranked => Plain exec service query fun port now => ranked =
          ScannerService.rankPool rows query poolSize fun candidates =>
            attachPlain (onMarket service port) (attachmentOf query) candidates query.timeframe now
      | .error e => Escaped exec e := by
  have hcandidates : (((sort rows .quoteVolume24h true).take poolSize).map ScannerRow.symbol).Nodup :=
    (sort_distinct hdistinct _ _).sublist ((List.take_sublist _ _).map _)
  refine Always.bind ((attach_always hcandidates).mono ?_)
  rintro (e | outs) w' hattached
  · exact hattached
  · refine plain_of_attached hcandidates ?_ hattached fun port now houts => ?_
    · rw [askedOf, List.length_map]
      exact ((capped_sublist _).length_le.trans (List.length_take_le _ _)).trans hpool
    · rw [houts]
      rfl

theorem Plain.mono {query : ScanQuery} {P Q : MarketDataPort → Timestamp → Prop} (h : Plain exec service query P)
    (hQ : ∀ port now, P port now → Q port now) : Plain exec service query Q := by
  obtain ⟨now, asked, heard, hnodup, hlength, hheard, hall⟩ := h
  exact ⟨now, asked, heard, hnodup, hlength, hheard, fun port hagrees => hQ port now (hall port hagrees)⟩

/-- What needs no candles asks for none. -/
theorem plain_of_forall {query : ScanQuery} {P : MarketDataPort → Timestamp → Prop} (hP : ∀ port now, P port now) :
    Plain exec service query P :=
  ⟨0, [], fun _ => .error .unavailable, List.nodup_nil, Nat.zero_le _, fun _ h => absurd h List.not_mem_nil,
    fun port _ => hP port 0⟩

theorem rank_always {query : ScanQuery} {rows : List ScannerRow} (hdistinct : (rows.map ScannerRow.symbol).Nodup)
    {w : W} :
    (rank service concurrency rows query).Always (scanning exec) w fun r _ =>
      match r with
      | .ok ranked => Plain exec service query fun port now => ranked = (onMarket service port).rank rows query now
      | .error e => Escaped exec e := by
  unfold rank
  by_cases hsetups : query.needsSetups = true
  · have hattachment : attachmentOf query = .setups := if_pos hsetups
    rw [if_pos hsetups, ← hattachment]
    refine Always.bind ((rankPool_always query hdistinct (min_le_right _ _)).mono ?_)
    rintro (e | ranked) w' hranked
    · exact hranked
    · refine hranked.mono fun port now heq => ?_
      rw [heq, ScannerService.rank, if_pos hsetups, hattachment]
      rfl
  · have hattachment : attachmentOf query = .metrics := if_neg hsetups
    rw [if_neg hsetups]
    by_cases hpool : query.needsPool = true
    · rw [if_pos hpool, ← hattachment]
      refine Always.bind ((rankPool_always query hdistinct (min_le_right _ _)).mono ?_)
      rintro (e | ranked) w' hranked
      · exact hranked
      · refine hranked.mono fun port now heq => ?_
        rw [heq, ScannerService.rank, if_neg hsetups, if_pos hpool, hattachment]
        rfl
    · rw [if_neg hpool]
      refine plain_of_forall fun port now => ?_
      rw [ScannerService.rank, if_neg hsetups, if_neg hpool]

variable (exec) in
/-- The universe or the tickers could not be read, or some call raised what is no error of the exchange. -/
def Refused (e : PortFailure) : Prop :=
  (∃ v v', exec .getSymbols v (.error e) v') ∨ (∃ v v', exec .getAllTickers v (.error e) v') ∨ Escaped exec e

/-- A page is what the plain scan makes of a market that stands still and gives what was heard. -/
def PagePlain [Runtime] (exec : Semantics PortEffect PortFailure W) (service : ScannerService) (query : ScanQuery)
    (page : ScannerPage) : Prop :=
  ∃ symbols observation started built, (∃ v v', exec .getSymbols v (.ok symbols) v') ∧
    (∃ v v', exec .getAllTickers v (.ok observation) v') ∧
    Plain exec service query fun port now => port.getSymbols = .ok symbols → port.getAllTickers = .ok observation →
      (onMarket service port).scan started ⟨built, now⟩ query = .ok page

theorem page_distinct {rows : List ScannerRow} (hdistinct : (rows.map ScannerRow.symbol).Nodup) (query : ScanQuery) :
    ((paginate (sort rows query.sortBy query.descending) query.page query.pageSize).map ScannerRow.symbol).Nodup :=
  (sort_distinct hdistinct _ _).sublist (((List.take_sublist _ _).trans (List.drop_sublist _ _)).map _)

theorem scan_always [Runtime] (query : ScanQuery)
    (hdistinct : ∀ v symbols v', exec .getSymbols v (.ok symbols) v' → (symbols.map fun symbol => symbol.symbol).Nodup)
    {w : W} :
    (scan service concurrency query).Always (scanning exec) w fun r _ =>
      match r with
      | .ok page => PagePlain exec service query page
      | .error e => Refused exec e := by
  unfold scan
  refine Always.bind (Always.perform ?_)
  rintro _ _ ⟨rfl, started, rfl⟩
  refine Always.bind (Always.perform ?_)
  rintro (e | symbols) w₁ hsymbols
  · exact .inl ⟨_, _, hsymbols⟩
  refine Always.bind (Always.perform ?_)
  rintro (e | observation) w₂ hobservation
  · exact .inr (.inl ⟨_, _, hobservation⟩)
  refine Always.bind (Always.perform ?_)
  rintro _ _ ⟨rfl, built, rfl⟩
  have hrows : ((service.eligible symbols observation built query).map ScannerRow.symbol).Nodup :=
    service.eligible_distinct (hdistinct _ symbols _ hsymbols)
  have hpage {page : ScannerPage} (hplain : Plain exec service query fun port now =>
      page = (onMarket service port).pageOf started ⟨built, now⟩ query symbols observation) :
      PagePlain exec service query page := by
    refine ⟨symbols, observation, started, built, ⟨_, _, hsymbols⟩, ⟨_, _, hobservation⟩, hplain.mono ?_⟩
    intro port now hpage hport htickers
    rw [(onMarket service port).scan_ok hport htickers, hpage]
  by_cases henriches : query.enriches = true
  · obtain ⟨⟨_, hpool⟩, hsetups⟩ :
        (query.includeMetrics = true ∧ ¬ query.needsPool = true) ∧ ¬ query.needsSetups = true := by
      simpa [ScanQuery.enriches] using henriches
    have hattachment : attachmentOf query = .metrics := if_neg hsetups
    dsimp only
    rw [rank, if_neg hsetups, if_neg hpool]
    change Always _ (enrichPage service concurrency query _ >>= _) _ _
    rw [enrichPage, if_pos henriches, ← hattachment]
    refine Always.bind ((attach_always (page_distinct hrows query)).mono ?_)
    rintro (e | outs) w₃ hattached
    · exact .inr (.inr hattached)
    · refine hpage (plain_of_attached (page_distinct hrows query) ?_ hattached fun port now houts => ?_)
      · rw [hattachment, askedOf, List.length_map, capped, List.splitAt_eq]
        exact List.length_take_le _ _
      · rw [houts, ScannerService.pageOf, if_pos henriches, ScannerService.rank, if_neg hsetups, if_neg hpool,
          hattachment]
        rfl
  · refine Always.bind ((rank_always hrows).mono ?_)
    rintro (e | ranked) w₃ hranked
    · exact .inr (.inr hranked)
    · dsimp only
      rw [enrichPage, if_neg henriches]
      refine hpage (hranked.mono fun port now heq => ?_)
      rw [heq, ScannerService.pageOf, if_neg henriches]
      rfl

end Scanning

section Examples

/-- A market that stands still. -/
def steady (port : MarketDataPort) : Semantics PortEffect PortFailure Unit
  | _, .getSymbols, _, r, _ => r = port.getSymbols.mapError .exchange
  | _, .getAllTickers, _, r, _ => r = port.getAllTickers.mapError .exchange
  | _, .getKlines symbol timeframe limit, _, r, _ => r = (port.getKlines symbol timeframe limit).mapError .exchange

theorem steady_answers (port : MarketDataPort) {β : Type} (f : PortEffect β) (v : Unit) :
    ∃ r v', steady port f v r v' := by
  cases f <;> exact ⟨_, (), rfl⟩

theorem two_requests : 1 ≤ 2 := one_le_two

def exampleConcurrency : Concurrency := ⟨2, two_requests⟩

def exampleRow (symbol : String) : ScannerRow where
  symbol := symbol
  baseAsset := symbol
  quoteAsset := "USDT"
  contractType := .perpetual
  status := .trading
  tickerStatus := .ok

def exampleRows : List ScannerRow := [exampleRow "BTCUSDT", exampleRow "ETHUSDT", exampleRow "XRPUSDT"]

/-- Two requests are open, and the third row waits for a permit. -/
theorem enrich_bounded_example :
    ∃ b, Relation.ReflTransGen (Together (limited (steady exampleService.exchange)))
        (((), 2), exampleRows.map (enrich exampleService .metrics .h1 0)) b ∧
      b.1.2 = 0 ∧ b.2.countP asking ≤ 2 ∧
      Acc (fun later earlier => Together (limited (steady exampleService.exchange)) earlier later) b := by
  let body (symbol : String) := asked exampleService .metrics .h1 0 (exampleRow symbol)
  have hrows : exampleRows.map (enrich exampleService .metrics .h1 0) =
      [withPermit (body "BTCUSDT"), withPermit (body "ETHUSDT"), withPermit (body "XRPUSDT")] := by
    simp only [exampleRows, List.map_cons, List.map_nil, enrich_eq, body]
  have hrun : Relation.ReflTransGen (Together (limited (steady exampleService.exchange)))
      (((), 2), exampleRows.map (enrich exampleService .metrics .h1 0))
      (((), 0), [held (body "BTCUSDT"), held (body "ETHUSDT"), withPermit (body "XRPUSDT")]) := by
    rw [hrows]
    exact (Relation.ReflTransGen.single (together_acquire () 1 [] (body "BTCUSDT") _)).tail
      (together_acquire () 0 [held (body "BTCUSDT")] (body "ETHUSDT") _)
  obtain ⟨hasking, _, _, hends⟩ := enrich_bounded exampleService exampleConcurrency .metrics .h1 0
    (fun f v => steady_answers exampleService.exchange f v) hrun
  exact ⟨_, hrun, rfl, hasking, hends⟩

/-- What the still market answers, at midnight. -/
def answers (port : MarketDataPort) : {β : Type} → ScanEffect β → Unit → Except PortFailure β × Unit
  | _, .port .getSymbols, _ => (port.getSymbols.mapError .exchange, ())
  | _, .port .getAllTickers, _ => (port.getAllTickers.mapError .exchange, ())
  | _, .port (.getKlines symbol timeframe limit), _ => ((port.getKlines symbol timeframe limit).mapError .exchange, ())
  | _, .utcnow, _ => (.ok 0, ())
  | _, .gather _ _, _ => (.ok [], ())

def isGather : {β : Type} → ScanEffect β → Unit → Bool
  | _, .gather _ _, _ => true
  | _, _, _ => false

theorem scanning_answers (port : MarketDataPort) {β : Type} (f : ScanEffect β) (v : Unit)
    (h : (!isGather f v) = true) : scanning (steady port) f v (answers port f v).1 (answers port f v).2 := by
  cases f with
  | port f => cases f <;> exact rfl
  | utcnow => exact ⟨rfl, 0, rfl⟩
  | gather permits bodies => exact absurd h Bool.false_ne_true

end Examples

end Aetheris.ScannerGather
