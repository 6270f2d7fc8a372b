import Godwit.Mcp.Registry

set_option autoImplicit false

/-! # Tool names and the servers they name

A tool is named by its server's name, the separator and its own, and a name is split at its first separator.
So a call comes back to the tool it is for exactly when the separator does not begin inside the server's name
(`routesBack_iff`), and then the names of different tools differ (`allTools_routed_iff`). -/

namespace Godwit

section Names

/-- The separator neither occurs in the name nor begins with its last character. -/
def CleanName (serverName : String) : Prop := ¬ ['_', '_'] <:+: serverName.toList ++ ['_']

instance (serverName : String) : Decidable (CleanName serverName) :=
  inferInstanceAs (Decidable (¬ _))

theorem McpTool.toCoreTool_name (tool : McpTool) (serverName : String) :
    (tool.toCoreTool serverName).function.name = serverName ++ "__" ++ tool.name := rfl

theorem splitToolName_toCoreTool_iff (tool : McpTool) (serverName : String) :
    splitToolName (tool.toCoreTool serverName).function.name = some (serverName, tool.name)
      ↔ CleanName serverName := by
  have hchars : (serverName ++ "__" ++ tool.name).toList = serverName.toList ++ ['_', '_'] ++ tool.name.toList := by
    rw [String.toList_append, String.toList_append]
    rfl
  have hsep : ['_', '_'] ≠ [] := List.cons_ne_nil _ _
  have hsplit := dropInfix?_joined_iff hsep serverName.toList tool.name.toList
  rw [McpTool.toCoreTool_name, splitToolName, hchars, CleanName]
  refine Iff.trans ?_ hsplit
  rw [Option.map_eq_some_iff]
  constructor
  · rintro ⟨⟨first, second⟩, hdrop, hp⟩
    obtain ⟨hfirst, hsecond⟩ := Prod.mk.inj hp
    rw [hdrop, ← hfirst, ← hsecond, String.toList_ofList, String.toList_ofList]
  · intro hdrop
    exact ⟨_, hdrop, by rw [String.ofList_toList, String.ofList_toList]⟩

/-- Names of tools tell the tools apart when the names of their servers are clean. -/
theorem toCoreTool_name_inj {tool tool' : McpTool} {serverName serverName' : String} (hclean : CleanName serverName)
    (hclean' : CleanName serverName')
    (hname : (tool.toCoreTool serverName).function.name = (tool'.toCoreTool serverName').function.name) :
    (serverName, tool.name) = (serverName', tool'.name) := by
  have hsplit := (splitToolName_toCoreTool_iff tool serverName).2 hclean
  rw [hname, (splitToolName_toCoreTool_iff tool' serverName').2 hclean'] at hsplit
  exact (Option.some_inj.1 hsplit).symm

end Names

section Registry

variable {Client : Type} (backend : McpBackend Client)

/-- A call by the name of a tool is sent to its server, with the bare name. -/
def RoutesBack (registry : McpRegistry Client) (serverName : String) (tool : McpTool) : Prop :=
  ∀ arguments, (registry.callTool backend (tool.toCoreTool serverName).function.name arguments).sent
    = [⟨serverName, tool.name, arguments⟩]

/-- The client of a server, which is connected when there is none. -/
def ServerEntry.connected (entry : ServerEntry Client) : Except McpClientError Client :=
  match entry.client with
  | some client => .ok client
  | none => backend.connect entry.config

variable {backend} {registry : McpRegistry Client}

/-- A server that connects has a client afterwards, and the other servers are as they were. -/
theorem McpRegistry.ensureConnected_ok {name : String} {entry : ServerEntry Client} {client : Client}
    (hentry : registry.servers.find? name = some entry) (hclient : entry.connected backend = .ok client) :
    ∃ registry', registry.ensureConnected backend name = (.ok (), registry')
      ∧ registry'.servers.find? name = some ⟨entry.config, some client⟩
      ∧ ∀ other ≠ name, registry'.servers.find? other = registry.servers.find? other := by
  obtain ⟨config, kept⟩ := entry
  obtain rfl : config.name = name := (Table.find?_eq_some_iff.1 hentry).2
  rw [McpRegistry.ensureConnected, hentry]
  cases kept with
  | some kept =>
      obtain rfl : kept = client := Except.ok.inj hclient
      exact ⟨registry, rfl, hentry, fun _ _ => rfl⟩
  | none =>
      have hconnect : backend.connect config = .ok client := hclient
      simp only [hconnect, Option.isSome_none]
      let row : ServerEntry Client := ⟨config, some client⟩
      have hself : (registry.servers.replace row).find? row.name = some row := Table.find?_replace_self hentry
      exact ⟨_, rfl, hself, fun other hother => Table.find?_replace_of_ne (Ne.symm hother)⟩

theorem McpRegistry.client?_of_find? {name : String} {config : McpServerConfig} {client : Client}
    (hentry : registry.servers.find? name = some ⟨config, some client⟩) :
    registry.client? name = some (config, client) := by
  rw [McpRegistry.client?, hentry]
  rfl

/-- What is sent when the name is split into a server and a tool. -/
theorem McpRegistry.callTool_sent_of_split {toolName serverName bareName : String}
    (hsplit : splitToolName toolName = some (serverName, bareName)) (hserver : serverName ≠ "")
    (hbare : bareName ≠ "") {entry : ServerEntry Client} {client : Client}
    (hentry : registry.servers.find? serverName = some entry) (hclient : entry.connected backend = .ok client)
    (arguments : Json) :
    (registry.callTool backend toolName arguments).sent = [⟨serverName, bareName, arguments⟩] := by
  obtain ⟨registry', hensure, hfind, -⟩ := McpRegistry.ensureConnected_ok hentry hclient
  have hfilter : (splitToolName toolName).filter (fun p => !p.1.isEmpty && !p.2.isEmpty)
      = some (serverName, bareName) := by
    rw [hsplit]
    simp [Option.filter, hserver, hbare]
  rw [McpRegistry.callTool, hfilter]
  dsimp only
  rw [hensure]
  dsimp only
  rw [McpRegistry.client?_of_find? hfind]

/-- Whatever is sent goes where the name is split. -/
theorem McpRegistry.split_of_callTool_sent {toolName : String} {arguments : Json} {call : SentCall}
    (hsent : (registry.callTool backend toolName arguments).sent = [call]) :
    splitToolName toolName = some (call.serverName, call.bareName) := by
  unfold McpRegistry.callTool at hsent
  split at hsent
  · simp at hsent
  · rename_i serverName bareName hfilter
    have hsplit := (Option.filter_eq_some_iff.1 hfilter).1
    split at hsent
    · simp at hsent
    · split at hsent
      · simp at hsent
      · obtain rfl := (List.cons.inj hsent).1
        exact hsplit

/-- A call comes back to a tool exactly when the name of its server is clean. -/
theorem routesBack_iff {tool : McpTool} {serverName : String} (hserver : serverName ≠ "") (htool : tool.name ≠ "")
    {entry : ServerEntry Client} {client : Client} (hentry : registry.servers.find? serverName = some entry)
    (hclient : entry.connected backend = .ok client) :
    RoutesBack backend registry serverName tool ↔ CleanName serverName := by
  rw [← splitToolName_toCoreTool_iff tool serverName]
  constructor
  · intro hroutes
    exact McpRegistry.split_of_callTool_sent (hroutes .null)
  · intro hsplit arguments
    exact McpRegistry.callTool_sent_of_split hsplit hserver htool hentry hclient arguments

/-! ## All tools -/

/-- Each server connects and lists its tools. -/
def McpRegistry.Serves (backend : McpBackend Client) (registry : McpRegistry Client)
    (tools : String → List McpTool) (name : String) : Prop :=
  ∃ entry client, registry.servers.find? name = some entry ∧ entry.connected backend = .ok client
    ∧ (McpClient.listTools backend client).1 = .ok (tools name)

theorem McpRegistry.serverTools_eq {tools : String → List McpTool} {name : String}
    (hserves : registry.Serves backend tools name) :
    ∃ registry', registry.serverTools backend name = (mcpToolsToCore name (tools name), registry')
      ∧ ∀ other ≠ name, registry'.servers.find? other = registry.servers.find? other := by
  obtain ⟨entry, client, hentry, hclient, hlist⟩ := hserves
  obtain ⟨registry', hensure, hfind, hothers⟩ := McpRegistry.ensureConnected_ok hentry hclient
  obtain ⟨-, rfl⟩ := Table.find?_eq_some_iff.1 hfind
  rw [McpRegistry.serverTools, hensure]
  dsimp only
  rw [McpRegistry.client?_of_find? hfind]
  dsimp only
  rw [hlist]
  refine ⟨_, rfl, fun other hother => ?_⟩
  refine Eq.trans (Table.find?_replace_of_ne ?_) (hothers other hother)
  exact Ne.symm hother

theorem McpRegistry.toolsOf_eq {tools : String → List McpTool} {names : List String} (hnames : names.Nodup)
    (hserves : ∀ name ∈ names, registry.Serves backend tools name) :
    (registry.toolsOf backend names).1 = names.flatMap fun name => mcpToolsToCore name (tools name) := by
  induction names generalizing registry with
  | nil => rfl
  | cons name names ih =>
      obtain ⟨hfresh, hnodup⟩ := List.nodup_cons.1 hnames
      obtain ⟨registry', hfirst, hothers⟩ := McpRegistry.serverTools_eq (hserves name List.mem_cons_self)
      -- the servers that come later are not touched by the first
      have hlater : ∀ other ∈ names, registry'.Serves backend tools other := by
        intro other hother
        obtain ⟨entry, client, hentry, hrest⟩ := hserves other (List.mem_cons_of_mem _ hother)
        have hne : other ≠ name := fun heq => hfresh (heq ▸ hother)
        exact ⟨entry, client, (hothers other hne).trans hentry, hrest⟩
      have hrest := ih hnodup hlater
      rw [McpRegistry.toolsOf, hfirst, List.flatMap_cons, ← hrest]

end Registry

/-- Tools on servers that connect: `all_tools` lists them all, and every call comes back to its tool while the
    names of different tools differ exactly when every server that has a tool has a clean name. -/
theorem McpRegistry.allTools_routed_iff {Client : Type} (backend : McpBackend Client)
    (registry : McpRegistry Client) (tools : String → List McpTool)
    (hserves : ∀ entry ∈ registry.servers, registry.Serves backend tools entry.name)
    (hnames : ∀ entry ∈ registry.servers, entry.name ≠ "" ∧ ∀ tool ∈ tools entry.name, tool.name ≠ "") :
    (registry.allTools backend).1
        = registry.servers.rows.flatMap (fun entry => mcpToolsToCore entry.name (tools entry.name))
      ∧ (((∀ entry ∈ registry.servers, ∀ tool ∈ tools entry.name, RoutesBack backend registry entry.name tool)
          ∧ ∀ entry ∈ registry.servers, ∀ tool ∈ tools entry.name,
              ∀ entry' ∈ registry.servers, ∀ tool' ∈ tools entry'.name,
                (entry.name, tool.name) ≠ (entry'.name, tool'.name) →
                  (tool.toCoreTool entry.name).function.name ≠ (tool'.toCoreTool entry'.name).function.name)
        ↔ ∀ entry ∈ registry.servers, tools entry.name ≠ [] → CleanName entry.name) := by
  -- a call depends on the name of its server only
  have hroutes : ∀ entry ∈ registry.servers, ∀ tool ∈ tools entry.name,
      (RoutesBack backend registry entry.name tool ↔ CleanName entry.name) := by
    intro entry hentry tool htool
    obtain ⟨found, client, hfound, hclient, -⟩ := hserves entry hentry
    obtain ⟨hname, htools⟩ := hnames entry hentry
    exact routesBack_iff hname (htools tool htool) hfound hclient
  refine ⟨?_, ?_, ?_⟩
  · have hall : ∀ name ∈ registry.servers.rows.map ServerEntry.name, registry.Serves backend tools name := by
      intro name hname
      obtain ⟨entry, hentry, rfl⟩ := List.mem_map.1 hname
      exact hserves entry hentry
    rw [McpRegistry.allTools, McpRegistry.toolsOf_eq registry.servers.distinct hall, List.flatMap_map]
  · rintro ⟨hback, -⟩ entry hentry htools
    obtain ⟨tool, htool⟩ := List.exists_mem_of_ne_nil _ htools
    exact (hroutes entry hentry tool htool).1 (hback entry hentry tool htool)
  · intro hclean
    refine ⟨fun entry hentry tool htool => ?_,
      fun entry hentry tool htool entry' hentry' tool' htool' hne hsame => ?_⟩
    · exact (hroutes entry hentry tool htool).2 (hclean entry hentry (List.ne_nil_of_mem htool))
    · exact hne (toCoreTool_name_inj (hclean entry hentry (List.ne_nil_of_mem htool))
        (hclean entry' hentry' (List.ne_nil_of_mem htool')) hsame)

/-! ## Two tools with one name -/

/-- A tool with a name only. -/
def bareTool (name : String) : McpTool := ⟨name, none, .obj []⟩

/-- The tools of two servers: `_b` on the server `a`, `b` on every other. -/
def edgeTools (serverName : String) : List McpTool := if serverName = "a" then [bareTool "_b"] else [bareTool "b"]

/-- A server is told by its name, and lists its tool. -/
def edgeBackend : McpBackend String where
  connect config := .ok config.name
  request client _ _ := (.ok (.obj [("tools", .arr ((edgeTools client).map fun tool =>
    .obj [("inputSchema", tool.inputSchema), ("name", .str tool.name)]))]), client)
  decodeError _ := ""

/-- Two servers, one of whose names ends in an underscore. -/
def edgeRegistry : McpRegistry String := .fromConfig [⟨"a", "sh", [], []⟩, ⟨"a_", "sh", [], []⟩]

theorem edgeRegistry_rows :
    edgeRegistry.servers.rows = [⟨⟨"a", "sh", [], []⟩, none⟩, ⟨⟨"a_", "sh", [], []⟩, none⟩] := by
  rfl

theorem edgeRegistry_find {entry : ServerEntry String} (hentry : entry ∈ edgeRegistry.servers) :
    edgeRegistry.servers.find? entry.name = some entry :=
  Table.find?_eq_some_iff.2 ⟨hentry, rfl⟩

theorem edgeRegistry_serves {entry : ServerEntry String} (hentry : entry ∈ edgeRegistry.servers) :
    edgeRegistry.Serves edgeBackend edgeTools entry.name := by
  have hfind := edgeRegistry_find hentry
  rw [Table.mem_iff, edgeRegistry_rows] at hentry
  rcases List.mem_cons.1 hentry with rfl | hentry
  · exact ⟨_, "a", hfind, rfl, rfl⟩
  · obtain rfl := List.mem_singleton.1 hentry
    exact ⟨_, "a_", hfind, rfl, rfl⟩

theorem edgeRegistry_names {entry : ServerEntry String} (hentry : entry ∈ edgeRegistry.servers) :
    entry.name ≠ "" ∧ ∀ tool ∈ edgeTools entry.name, tool.name ≠ "" := by
  rw [Table.mem_iff, edgeRegistry_rows] at hentry
  rcases List.mem_cons.1 hentry with rfl | hentry
  · refine ⟨by decide, fun tool htool => ?_⟩
    rw [List.mem_singleton.1 htool]
    decide
  · obtain rfl := List.mem_singleton.1 hentry
    refine ⟨by decide, fun tool htool => ?_⟩
    rw [List.mem_singleton.1 htool]
    decide

/-- `a___b` is the name of both tools, and a call by it is sent to the server `a`. -/
theorem edgeTools_clash :
    ((bareTool "_b").toCoreTool "a").function.name = ((bareTool "b").toCoreTool "a_").function.name
      ∧ ¬ RoutesBack edgeBackend edgeRegistry "a_" (bareTool "b") := by
  refine ⟨by decide, fun hroutes => ?_⟩
  have hsplit := McpRegistry.split_of_callTool_sent (hroutes .null)
  exact absurd ((splitToolName_toCoreTool_iff _ _).1 hsplit) (by decide)

theorem McpRegistry.allTools_routed_iff_edge :
    (∀ entry ∈ edgeRegistry.servers, edgeRegistry.Serves edgeBackend edgeTools entry.name)
      ∧ (edgeRegistry.allTools edgeBackend).1
        = edgeRegistry.servers.rows.flatMap (fun entry => mcpToolsToCore entry.name (edgeTools entry.name)) :=
  ⟨fun _ hentry => edgeRegistry_serves hentry,
    (McpRegistry.allTools_routed_iff edgeBackend edgeRegistry edgeTools (fun _ hentry => edgeRegistry_serves hentry)
      fun _ hentry => edgeRegistry_names hentry).1⟩

end Godwit
