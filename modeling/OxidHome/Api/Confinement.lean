import OxidHome.Api.McpTools

/-!
# What the constraints of a token confine

The calls of an admitted actor have an effect only where its constraints let the tool have it, and a
refused call says nothing about the host. What a tool returns for an id comes back from that tool
alone, but for `plugins.show`: the resource of a plugin has the same body and asks for a scope only.
-/

namespace OxidHome.Api.Tools
open Auth Library Wit
open Std (TreeMap)

inductive Effect (s t : McpHost) : String → String → Prop where
  | sent {id : DeviceId} {command : DeviceCommand}
      (added : (id, command) ∈ t.commands.drop s.commands.length) :
      Effect s t "device.send_command" id
  | stopped {instanceId : String} {row : InstanceRow} (before : s.instances[instanceId]? = some row)
      (after : t.instances[instanceId]? = none) : Effect s t "plugins.stop" row.pluginId
  | uninstalled {id : String} {row : InstalledRow} (before : s.installed[id]? = some row)
      (after : t.installed[id]? = none) : Effect s t "plugins.uninstall" id
  | started {instanceId : String} {row : InstanceRow} (after : t.instances[instanceId]? = some row)
      (before : s.instances[instanceId]? ≠ some row) : Effect s t "plugins.start" row.pluginId
  | installed {id : String} {row : InstalledRow} (after : t.installed[id]? = some row)
      (before : s.installed[id]? ≠ some row) : Effect s t "plugins.install" id

inductive Shows (s : McpHost) : Answer → String → String → Prop where
  | command (deviceId : DeviceId) (result : CommandResult) :
      Shows s (.ok (.command deviceId result)) "device.send_command" deviceId
  | plugin (detail : PluginDetail) : Shows s (.ok (.plugin detail)) "plugins.show" detail.pluginId
  | stopped {instanceIds : List String} {instanceId : String} {row : InstanceRow}
      (mem : instanceId ∈ instanceIds) (here : s.instances[instanceId]? = some row) :
      Shows s (.ok (.stopped instanceIds)) "plugins.stop" row.pluginId
  | uninstalled (id : String) : Shows s (.ok (.uninstalled id)) "plugins.uninstall" id
  | started (id instanceId state : String) :
      Shows s (.ok (.started id instanceId state)) "plugins.start" id
  | installed (id version path : String) :
      Shows s (.ok (.installed id version path)) "plugins.install" id

section
variable (fits : Body → Bool) (text : McpHost → Kind → String)

/-- The constraints of the actor hold at every request that it makes, in any history. -/
structure Confined (actor : Actor) : Prop where
  effects : ∀ (start : McpHost) (history : List (Actor × McpRequest)) (request : McpRequest)
    (tool id : String), excludes actor tool id = true →
    let s := run fits text start history
    ¬ Effect s (serve fits text s actor request).1 tool id
  data : ∀ (start : McpHost) (history : List (Actor × McpRequest)) (request : McpRequest)
    (tool id : String), excludes actor tool id = true →
    let s := run fits text start history
    ¬ Shows s (serve fits text s actor request).2 tool id
  refusals : ∀ (start : McpHost) (history : List (Actor × McpRequest)) (request : McpRequest)
    (required : String),
    let s := run fits text start history
    (serve fits text s actor request).2 = .denied required →
      (serve fits text s actor request).1 = s ∧
        ∀ other : McpHost, (serve fits text other actor request).2 = .denied required

def Addressable (id : String) : Prop := id ≠ "" ∧ '/' ∉ id.toList ∧ '?' ∉ id.toList

def Displayable (id : String) : Prop :=
  ∃ (s : McpHost) (detail : PluginDetail),
    s.pluginsDetailBody id = some detail ∧ fits (.plugin detail) = true

end

variable {fits : Body → Bool} {text : McpHost → Kind → String} {s t : McpHost} {actor : Actor}
  {tool id : String}

/-! ## What a request can do -/

inductive Move (s : McpHost) (actor : Actor) : McpHost → Prop where
  | same : Move s actor s
  | sent (deviceId : DeviceId) (command : DeviceCommand)
      (allowed : excludes actor "device.send_command" deviceId = false) :
      Move s actor { s with commands := s.commands ++ [(deviceId, command)] }
  | stopped (pluginId : String) (instanceIds : List String)
      (allowed : excludes actor "plugins.stop" pluginId = false)
      (own : ∀ (i : String) (row : InstanceRow), i ∈ instanceIds → s.instances[i]? = some row →
        row.pluginId = pluginId) :
      Move s actor { s with instances := s.instances.filter fun i _ => i ∉ instanceIds }
  | uninstalled (pluginId : String) (allowed : excludes actor "plugins.uninstall" pluginId = false) :
      Move s actor { s with installed := s.installed.erase pluginId }
  | started (pluginId instanceId state : String)
      (allowed : excludes actor "plugins.start" pluginId = false)
      (free : instanceId ∉ s.instances) :
      Move s actor { s with instances := s.instances.insert instanceId ⟨pluginId, state⟩ }
  | installed (pluginId : String) (row : InstalledRow)
      (allowed : excludes actor "plugins.install" pluginId = false)
      (free : pluginId ∉ s.installed) :
      Move s actor { s with installed := s.installed.insert pluginId row }

theorem instancesOf_own {pluginId : String} {p : String × InstanceRow}
    (mem : p ∈ s.instancesOf pluginId) {row : InstanceRow} (found : s.instances[p.1]? = some row) :
    row.pluginId = pluginId := by
  obtain ⟨listed, own⟩ := List.mem_filter.mp mem
  rw [mem_toList.mp (show (p.1, p.2) ∈ s.instances.toList from listed)] at found
  cases found
  simpa using own

theorem stopped_own {pluginId : String} {instanceId : Option String} {fails : String → Bool}
    {i : String} {row : InstanceRow}
    (mem : i ∈ (((s.instancesOf pluginId).filter fun p => instanceId.all (· = p.1)).map
      Prod.fst).filter fun id => !fails id) (found : s.instances[i]? = some row) :
    row.pluginId = pluginId := by
  obtain ⟨p, matched, rfl⟩ := List.mem_map.mp (List.mem_filter.mp mem).1
  exact instancesOf_own (List.mem_filter.mp matched).1 found

theorem callTool_move (request : ToolCall) :
    Move s actor (callTool fits text s actor request).1 := by
  cases request with
  | unknown | malformed | logsQuery | eventsHistory | pluginsList | pluginsShow => exact .same
  | deviceSendCommand deviceId command reply =>
      dsimp only [callTool]
      unfold deviceSendCommandCall
      dsimp only
      split_ifs with excluded
      · exact .same
      · rw [Bool.not_eq_true] at excluded
        split
        · exact .same
        split
        · exact .same
        split
        · exact .sent deviceId command excluded
        · exact .sent deviceId command excluded
        · exact .sent deviceId command excluded
  | pluginsStop pluginId instanceId fails =>
      dsimp only [callTool]
      unfold pluginsStopCall
      split_ifs with _ _ excluded
      · exact .same
      · exact .same
      · exact .same
      · rw [Bool.not_eq_true] at excluded
        exact .stopped pluginId _ excluded fun i row mem found => stopped_own mem found
  | pluginsUninstall pluginId failure =>
      dsimp only [callTool]
      unfold pluginsUninstallCall
      dsimp only
      split
      · exact .same
      split
      · exact .same
      next excluded =>
      rw [Bool.not_eq_true] at excluded
      split
      · exact .same
      split
      · exact .same
      · split
        · exact .uninstalled pluginId excluded
        · exact .same
      · split
        · exact .uninstalled pluginId excluded
        · exact .same
      · split
        · exact .same
        · exact .uninstalled pluginId excluded
  | pluginsStart pluginId instanceId result =>
      dsimp only [callTool]
      unfold pluginsStartCall
      dsimp only
      split
      · exact .same
      split
      · exact .same
      split
      · exact .same
      next excluded =>
      rw [Bool.not_eq_true] at excluded
      split
      · exact .same
      split
      · exact .same
      split
      · exact .same
      split
      · exact .same
      next taken => exact .started pluginId _ _ excluded taken
  | pluginsInstall sourceDir manifest copied =>
      dsimp only [callTool]
      unfold pluginsInstallCall
      split_ifs
      · exact .same
      · exact .same
      · split
        · exact .same
        · split_ifs with _ excluded present
          · exact .same
          · exact .same
          · exact .same
          · rw [Bool.not_eq_true] at excluded
            split
            · exact .same
            · exact .installed _ _ excluded present

theorem serve_move (request : McpRequest) : Move s actor (serve fits text s actor request).1 := by
  cases request with
  | callTool request =>
      dsimp only [serve]
      unfold call
      split
      · exact callTool_move _
      · split_ifs
        · exact callTool_move _
        · exact .same
  | readResource uri => exact .same

theorem Move.effect (move : Move s actor t) (effect : Effect s t tool id) :
    excludes actor tool id = false := by
  cases move with
  | same =>
      cases effect with
      | sent added =>
          rw [List.drop_length] at added
          cases added
      | stopped before after | uninstalled before after =>
          rw [before] at after
          cases after
      | started after before | installed after before => exact absurd after before
  | sent deviceId command allowed =>
      cases effect with
      | sent added =>
          rw [List.drop_left, List.mem_singleton] at added
          cases added
          exact allowed
      | stopped before after | uninstalled before after =>
          rw [before] at after
          cases after
      | started after before | installed after before => exact absurd after before
  | stopped pluginId instanceIds allowed own =>
      cases effect with
      | sent added =>
          rw [List.drop_length] at added
          cases added
      | @stopped i row before after =>
          have gone : i ∈ instanceIds := by
            by_contra kept
            simp [before, kept] at after
          rw [own i row gone before]
          exact allowed
      | uninstalled before after =>
          rw [before] at after
          cases after
      | started after before =>
          rw [TreeMap.getElem?_filter'] at after
          exact absurd (Option.filter_eq_some_iff.mp after).1 before
      | installed after before => exact absurd after before
  | uninstalled pluginId allowed =>
      cases effect with
      | sent added =>
          rw [List.drop_length] at added
          cases added
      | stopped before after =>
          rw [before] at after
          cases after
      | uninstalled before after =>
          rw [getElem?_erase_eq] at after
          split_ifs at after with here
          · rw [← here]
            exact allowed
          · rw [before] at after
            cases after
      | started after before => exact absurd after before
      | installed after before =>
          rw [getElem?_erase_eq] at after
          split_ifs at after
          exact absurd after before
  | started pluginId instanceId state allowed free =>
      cases effect with
      | sent added =>
          rw [List.drop_length] at added
          cases added
      | stopped before after =>
          rw [getElem?_insert_eq] at after
          split_ifs at after
          rw [before] at after
          cases after
      | uninstalled before after =>
          rw [before] at after
          cases after
      | started after before =>
          rw [getElem?_insert_eq] at after
          split_ifs at after
          · cases after
            exact allowed
          · exact absurd after before
      | installed after before => exact absurd after before
  | installed pluginId row allowed free =>
      cases effect with
      | sent added =>
          rw [List.drop_length] at added
          cases added
      | stopped before after =>
          rw [before] at after
          cases after
      | uninstalled before after =>
          rw [getElem?_insert_eq] at after
          split_ifs at after
          rw [before] at after
          cases after
      | started after before => exact absurd after before
      | installed after before =>
          rw [getElem?_insert_eq] at after
          split_ifs at after with here
          · rw [← here]
            exact allowed
          · exact absurd after before

/-! ## What an answer shows -/

theorem shows_of_capped {body : Body} {tool id : String}
    (shows_ : Shows s (encodeCapped fits body) tool id) :
    fits body = true ∧ Shows s (.ok body) tool id := by
  unfold encodeCapped at shows_
  split_ifs at shows_ with within
  · exact ⟨within, shows_⟩
  · cases shows_

theorem pluginsDetailBody_id {detail : PluginDetail} (found : s.pluginsDetailBody id = some detail) :
    detail.pluginId = id := by
  unfold McpHost.pluginsDetailBody at found
  dsimp only at found
  split_ifs at found
  cases found
  rfl

theorem callTool_shows (request : ToolCall)
    (shows_ : Shows s (callTool fits text s actor request).2 tool id) :
    excludes actor tool id = false := by
  cases request with
  | unknown | malformed => cases shows_
  | logsQuery | eventsHistory | pluginsList => cases (shows_of_capped shows_).2
  | deviceSendCommand deviceId command reply =>
      dsimp only [callTool] at shows_
      unfold deviceSendCommandCall at shows_
      dsimp only at shows_
      split at shows_
      · cases shows_
      next excluded =>
      rw [Bool.not_eq_true] at excluded
      split at shows_
      · cases shows_
      split at shows_
      · cases shows_
      split at shows_
      · cases shows_
      · cases shows_
      · cases shows_
        exact excluded
  | pluginsShow pluginId =>
      dsimp only [callTool] at shows_
      unfold pluginsShowCall at shows_
      split at shows_
      · cases shows_
      split at shows_
      · cases shows_
      next excluded =>
      rw [Bool.not_eq_true] at excluded
      split at shows_
      · cases shows_
      next detail found =>
      cases (shows_of_capped shows_).2
      rw [pluginsDetailBody_id found]
      exact excluded
  | pluginsStop pluginId instanceId fails =>
      dsimp only [callTool] at shows_
      unfold pluginsStopCall at shows_
      split at shows_
      · cases shows_
      split at shows_
      · cases shows_
      split at shows_
      · cases shows_
      next excluded =>
      rw [Bool.not_eq_true] at excluded
      cases (shows_of_capped shows_).2 with
      | stopped mem here =>
          rw [stopped_own mem here]
          exact excluded
  | pluginsUninstall pluginId failure =>
      dsimp only [callTool] at shows_
      unfold pluginsUninstallCall at shows_
      dsimp only at shows_
      split at shows_
      · cases shows_
      split at shows_
      · cases shows_
      next excluded =>
      rw [Bool.not_eq_true] at excluded
      split at shows_
      · cases shows_
      split at shows_
      · cases shows_
      · cases shows_
      · cases shows_
      · split at shows_
        · cases shows_
        · cases (shows_of_capped shows_).2
          exact excluded
  | pluginsStart pluginId instanceId result =>
      dsimp only [callTool] at shows_
      unfold pluginsStartCall at shows_
      dsimp only at shows_
      split at shows_
      · cases shows_
      split at shows_
      · cases shows_
      split at shows_
      · cases shows_
      next excluded =>
      rw [Bool.not_eq_true] at excluded
      split at shows_
      · cases shows_
      split at shows_
      · cases shows_
      split at shows_
      · cases shows_
      split at shows_
      · cases shows_
      dsimp only at shows_
      split at shows_
      · cases (shows_of_capped shows_).2
        exact excluded
      · cases shows_
  | pluginsInstall sourceDir manifest copied =>
      dsimp only [callTool] at shows_
      unfold pluginsInstallCall at shows_
      split at shows_
      · cases shows_
      split at shows_
      · cases shows_
      split at shows_
      · cases shows_
      split at shows_
      · cases shows_
      split at shows_
      · cases shows_
      next excluded =>
      rw [Bool.not_eq_true] at excluded
      split at shows_
      · cases shows_
      split at shows_
      · next failure =>
          cases failure with
          | badManifest | failed | panicked => cases shows_
      · cases (shows_of_capped shows_).2
        exact excluded

theorem readInner_shows {uri : String} (shows_ : Shows s (readInner fits text s actor uri) tool id) :
    tool = "plugins.show" ∧ ∃ family required detail,
      resolveRoute uri = .dispatch family required (.pluginsDetail id) ∧
        requireScope actor required = true ∧ s.pluginsDetailBody id = some detail ∧
        fits (.plugin detail) = true := by
  unfold readInner at shows_
  split at shows_
  · cases shows_
  next family required kind routed =>
  split_ifs at shows_ with scope
  · cases kind with
    | pluginsDetail asked =>
        dsimp only [readKind] at shows_
        split at shows_
        · next detail found =>
            obtain ⟨within, shown⟩ := shows_of_capped shows_
            cases shown
            refine ⟨rfl, family, required, detail, ?_, scope, ?_, within⟩
            · rw [pluginsDetailBody_id found]
              exact routed
            · rw [pluginsDetailBody_id found]
              exact found
        · cases shows_
    | devicesList | devicesDetail | pluginsList | events | logs | status | blob =>
        cases (shows_of_capped shows_).2
  · cases shows_

/-! ## The resource of a plugin -/

theorem resolveRoute_plugin (addressable : Addressable id) :
    resolveRoute (String.ofList (SCHEME.toList ++ ("plugins".toList ++ '/' :: id.toList))) =
      .dispatch "plugins.detail" PLUGINS_LIST (.pluginsDetail id) := by
  obtain ⟨some_, slash, query⟩ := addressable
  have whole : splitOnce '?' ("plugins".toList ++ '/' :: id.toList) = none := by
    apply splitOnce_eq_none.mpr
    simp [query]
  have head : splitOnce '/' ("plugins".toList ++ '/' :: id.toList) =
      some ("plugins".toList, id.toList) := splitOnce_append (by simp) _
  have cut : (SCHEME.toList ++ ("plugins".toList ++ '/' :: id.toList)).dropPrefix? SCHEME.toList =
      some ("plugins".toList ++ '/' :: id.toList) :=
    List.dropPrefix?_append_of_beq _ (beq_self_eq_true _)
  have named : id.toList ≠ [] := by
    intro empty
    exact some_ (String.toList_eq_nil_iff.mp empty)
  unfold resolveRoute
  rw [String.toList_ofList, cut]
  simp only [whole, head, String.ofList_toList, routeOf, named, slash, ne_eq, not_false_eq_true,
    and_self, if_true, Option.getD_some]

theorem addressable_of_segments {uri head family : String} {required : Scope} {path : List Char}
    {tail : Option (List Char)} {unknown : Mcp.ReadOutcome} (query : '?' ∉ path)
    (within : ∀ rest, tail = some rest → ∀ c ∈ rest, c ∈ path)
    (routed : (routeOf uri head tail).getD (.terminal "unknown" unknown) =
      .dispatch family required (.pluginsDetail id)) : Addressable id ∧ required = PLUGINS_LIST := by
  unfold routeOf at routed
  split at routed
  · cases routed
  · split_ifs at routed
    · cases routed
    · cases routed
  · cases routed
  · next rest =>
      split_ifs at routed with shape
      · cases routed
        refine ⟨⟨?_, ?_, ?_⟩, rfl⟩
        · intro empty
          apply shape.1
          rw [← String.toList_ofList (l := rest), empty]
          rfl
        · rw [String.toList_ofList]
          exact shape.2
        · rw [String.toList_ofList]
          exact fun mem => query (within rest rfl '?' mem)
      · cases routed
  · cases routed
  · cases routed
  · cases routed
  · dsimp only at routed
    split at routed
    · split_ifs at routed
      · cases routed
      · cases routed
    · cases routed
  · cases routed

theorem mem_of_splitOnce {path : List Char} {segments : List Char × List Char}
    (found : splitOnce '/' path = some segments) (rest : List Char)
    (same : some segments.2 = some rest) : ∀ c ∈ rest, c ∈ path := by
  intro c mem
  cases same
  rw [(splitOnce_eq_some.mp found).2]
  exact List.mem_append_right _ (List.mem_cons_of_mem _ mem)

theorem addressable_of_route {uri family : String} {required : Scope}
    (routed : resolveRoute uri = .dispatch family required (.pluginsDetail id)) :
    Addressable id ∧ required = PLUGINS_LIST := by
  unfold resolveRoute at routed
  split at routed
  · cases routed
  next rest cut =>
  dsimp only at routed
  cases asked : splitOnce '?' rest with
  | none =>
      rw [asked] at routed
      dsimp only at routed
      have query := splitOnce_eq_none.mp asked
      cases found : splitOnce '/' rest with
      | none =>
          rw [found] at routed
          refine addressable_of_segments query ?_ routed
          intro rest same
          cases same
      | some segments =>
          rw [found] at routed
          exact addressable_of_segments query (mem_of_splitOnce found) routed
  | some parts =>
      rw [asked] at routed
      dsimp only at routed
      have query := (splitOnce_eq_some.mp asked).1
      cases found : splitOnce '/' parts.1 with
      | none =>
          rw [found] at routed
          refine addressable_of_segments query ?_ routed
          intro rest same
          cases same
      | some segments =>
          rw [found] at routed
          exact addressable_of_segments query (mem_of_splitOnce found) routed

/-! ## Refused calls -/

theorem encodeCapped_ne_denied (body : Body) (required : String) :
    encodeCapped fits body ≠ .denied required := by
  intro same
  unfold encodeCapped at same
  split_ifs at same

theorem call_denied {request : ToolCall} {required : String}
    (denied : (callTool fits text s actor request).2 = .denied required) (other : McpHost) :
    (callTool fits text s actor request).1 = s ∧
      (callTool fits text other actor request).2 = .denied required := by
  cases request with
  | unknown | malformed => cases denied
  | logsQuery | eventsHistory | pluginsList => exact absurd denied (encodeCapped_ne_denied _ _)
  | deviceSendCommand deviceId command reply =>
      dsimp only [callTool] at denied ⊢
      unfold deviceSendCommandCall at denied ⊢
      dsimp only at denied ⊢
      split at denied
      · next excluded =>
          rw [if_pos excluded, if_pos excluded]
          exact ⟨rfl, denied⟩
      split at denied
      · cases denied
      split at denied
      · cases denied
      split at denied
      · cases denied
      · cases denied
      · cases denied
  | pluginsShow pluginId =>
      dsimp only [callTool] at denied ⊢
      unfold pluginsShowCall at denied ⊢
      split at denied
      · cases denied
      next named =>
      split at denied
      · next excluded =>
          rw [if_neg named, if_pos excluded]
          exact ⟨rfl, denied⟩
      split at denied
      · cases denied
      · exact absurd denied (encodeCapped_ne_denied _ _)
  | pluginsStop pluginId instanceId fails =>
      dsimp only [callTool] at denied ⊢
      unfold pluginsStopCall at denied ⊢
      split at denied
      · cases denied
      next named =>
      split at denied
      · cases denied
      next chosen =>
      split at denied
      · next excluded =>
          rw [if_neg named, if_neg chosen, if_pos excluded, if_neg named, if_neg chosen,
            if_pos excluded]
          exact ⟨rfl, denied⟩
      · exact absurd denied (encodeCapped_ne_denied _ _)
  | pluginsUninstall pluginId failure =>
      dsimp only [callTool] at denied ⊢
      unfold pluginsUninstallCall at denied ⊢
      dsimp only at denied ⊢
      split at denied
      · cases denied
      next named =>
      split at denied
      · next excluded =>
          rw [if_neg named, if_pos excluded, if_neg named, if_pos excluded]
          exact ⟨rfl, denied⟩
      split at denied
      · cases denied
      split at denied
      · cases denied
      · cases denied
      · cases denied
      · split at denied
        · cases denied
        · exact absurd denied (encodeCapped_ne_denied _ _)
  | pluginsStart pluginId instanceId result =>
      dsimp only [callTool] at denied ⊢
      unfold pluginsStartCall at denied ⊢
      dsimp only at denied ⊢
      split at denied
      · cases denied
      next named =>
      split at denied
      · cases denied
      next chosen =>
      split at denied
      · next excluded =>
          rw [if_neg named, if_neg chosen, if_pos excluded, if_neg named, if_neg chosen,
            if_pos excluded]
          exact ⟨rfl, denied⟩
      split at denied
      · cases denied
      split at denied
      · cases denied
      split at denied
      · cases denied
      split at denied
      · cases denied
      dsimp only at denied
      split at denied
      · exact absurd denied (encodeCapped_ne_denied _ _)
      · cases denied
  | pluginsInstall sourceDir manifest copied =>
      dsimp only [callTool] at denied ⊢
      unfold pluginsInstallCall at denied ⊢
      split at denied
      · cases denied
      next named =>
      split at denied
      · cases denied
      next absolute =>
      rw [if_neg named, if_neg absolute, if_neg named, if_neg absolute]
      split at denied
      · cases denied
      split at denied
      · cases denied
      next safe =>
      split at denied
      · next excluded =>
          rw [if_neg safe, if_pos excluded, if_neg safe, if_pos excluded]
          exact ⟨rfl, denied⟩
      split at denied
      · cases denied
      split at denied
      · next failure =>
          cases failure with
          | badManifest | failed | panicked => cases denied
      · exact absurd denied (encodeCapped_ne_denied _ _)

theorem serve_denied {request : McpRequest} {required : String}
    (denied : (serve fits text s actor request).2 = .denied required) (other : McpHost) :
    (serve fits text s actor request).1 = s ∧
      (serve fits text other actor request).2 = .denied required := by
  cases request with
  | callTool request =>
      dsimp only [serve] at denied ⊢
      unfold call at denied ⊢
      split at denied
      · exact call_denied denied other
      · split_ifs at denied ⊢
        · exact call_denied denied other
        · exact ⟨rfl, denied⟩
  | readResource uri =>
      refine ⟨rfl, ?_⟩
      dsimp only [serve] at denied ⊢
      unfold readInner at denied ⊢
      split at denied
      · cases denied
      · split_ifs at denied ⊢
        · unfold readKind at denied
          split at denied
          · exact absurd denied (encodeCapped_ne_denied _ _)
          · split at denied
            · exact absurd denied (encodeCapped_ne_denied _ _)
            · cases denied
          · exact absurd denied (encodeCapped_ne_denied _ _)
        · exact denied

/-! ## The route around `plugins.show` -/

theorem displayable_of_fits (all : ∀ detail, fits (.plugin detail) = true) (id : String) :
    Displayable fits id := by
  let row : InstalledRow := ⟨"1.0.0", false, "", "", id⟩
  let s : McpHost := ⟨(∅ : TreeMap String InstalledRow).insert id row, ∅, ∅, []⟩
  have found : s.installed[id]? = some row := getElem?_insert_self _ _ _
  have shown : ∃ detail, s.pluginsDetailBody id = some detail := by
    unfold McpHost.pluginsDetailBody
    dsimp only
    rw [found]
    exact ⟨_, rfl⟩
  obtain ⟨detail, shown⟩ := shown
  exact ⟨s, detail, shown, all detail⟩

theorem read_shows {detail : PluginDetail} (scope : requireScope actor PLUGINS_LIST = true)
    (addressable : Addressable id) (found : s.pluginsDetailBody id = some detail)
    (within : fits (.plugin detail) = true) : ∃ uri,
      Shows s (readInner fits text s actor uri) "plugins.show" id := by
  refine ⟨String.ofList (SCHEME.toList ++ ("plugins".toList ++ '/' :: id.toList)), ?_⟩
  unfold readInner
  rw [resolveRoute_plugin addressable]
  dsimp only
  rw [if_pos scope, readKind, found]
  dsimp only
  rw [encodeCapped, if_pos within, ← pluginsDetailBody_id found]
  exact .plugin detail

theorem confined_iff : Confined fits text actor ↔
    (requireScope actor PLUGINS_LIST = true → ∀ id, Addressable id → Displayable fits id →
      excludes actor "plugins.show" id = false) := by
  constructor
  · rintro confined scope id addressable ⟨s, detail, found, within⟩
    by_contra excluded
    have listing : ∃ uri, Shows s (readInner fits text s actor uri) "plugins.show" id :=
      read_shows scope addressable found within
    obtain ⟨uri, shown⟩ := listing
    exact confined.data s [] (.readResource uri) "plugins.show" id
      (Bool.eq_true_of_not_eq_false excluded) shown
  · intro listed
    constructor
    · intro start history request tool id excluded s effect
      rw [(serve_move request).effect effect] at excluded
      cases excluded
    · intro start history request tool id excluded s shown
      cases request with
      | callTool request =>
          dsimp only [serve] at shown
          unfold call at shown
          split at shown
          · rw [callTool_shows _ shown] at excluded
            cases excluded
          · split_ifs at shown
            · rw [callTool_shows _ shown] at excluded
              cases excluded
            · cases shown
      | readResource uri =>
          obtain ⟨rfl, family, required, detail, routed, scope, found, within⟩ :=
            readInner_shows shown
          obtain ⟨addressable, rfl⟩ := addressable_of_route routed
          rw [listed scope id addressable ⟨s, detail, found, within⟩] at excluded
          cases excluded
    · intro start history request required s denied
      exact ⟨(serve_denied denied s).1, fun other => (serve_denied denied other).2⟩

theorem constraints_confine_iff (fits : Body → Bool) (text : McpHost → Kind → String)
    (tokenId : String) (policy : TokenPolicy) :
    (∀ transport, admits transport (.apiWithPolicy tokenId policy) = true ↔
      ∀ (key : String) (cx : ToolConstraint), policy.constraints[key]? = some cx →
        Enforces (enforcedConstraints transport) key cx) ∧
    (∀ transport, transport ≠ .mcp → admits transport (.apiWithPolicy tokenId policy) = true →
      ∀ key : String, policy.constraints[key]? = none) ∧
    (admits .mcp (.apiWithPolicy tokenId policy) = true →
      (Confined fits text (.apiWithPolicy tokenId policy) ↔
        (satisfiedBy PLUGINS_LIST policy.scopes = true → ∀ id, Addressable id →
          Displayable fits id →
          excludes (.apiWithPolicy tokenId policy) "plugins.show" id = false))) := by
  refine ⟨fun transport => admits_iff, ?_, fun _ => confined_iff⟩
  intro transport other admitted key
  apply unconstrained_of_admits _ admitted
  cases transport with
  | rest | connect => rfl
  | mcp => exact absurd rfl other

def lampOnly (tool : String) : TreeMap String ToolConstraint :=
  (∅ : TreeMap String ToolConstraint).insert tool ⟨none, some ["acme.lamp"]⟩

def lampStopper : TokenPolicy := ⟨["plugins:stop"], lampOnly "plugins.stop"⟩

def lampViewer : TokenPolicy := ⟨["plugins:list"], lampOnly "plugins.show"⟩

theorem constraints_confine_iff_lamp :
    Confined (fun _ => true) (fun _ _ => "") (.apiWithPolicy "tok-1" lampStopper) := by
  obtain ⟨_, _, confined⟩ :=
    constraints_confine_iff (fun _ => true) (fun _ _ => "") "tok-1" lampStopper
  apply (confined (by decide +kernel)).mpr
  intro scope
  exact absurd scope (by decide)

theorem resource_shows_every_plugin :
    ¬ ∀ (fits : Body → Bool) (text : McpHost → Kind → String) (tokenId : String)
      (policy : TokenPolicy), admits .mcp (.apiWithPolicy tokenId policy) = true →
        Confined fits text (.apiWithPolicy tokenId policy) := by
  intro claim
  have admitted : admits .mcp (.apiWithPolicy "tok-1" lampViewer) = true := by decide +kernel
  have confined := claim (fun _ => true) (fun _ _ => "") "tok-1" lampViewer admitted
  have allowed := confined_iff.mp confined (by decide) "acme.door"
    ⟨by decide, by decide, by decide⟩ (displayable_of_fits (fun _ => rfl) "acme.door")
  revert allowed
  decide +kernel

end OxidHome.Api.Tools
