import Godwit.Core.Chat
import Godwit.Core.ChatWire
import Godwit.Lib.Table
import Godwit.Lib.Text
import Godwit.Mcp.Client

set_option autoImplicit false

/-! # The registry of tool servers (`godwit-mcp/src/tool.rs`, `registry.rs`)

The tools of every server under names that tell the server, and calls that are routed by such a name. Clients
are connected when they are needed and kept. The order in which a `HashMap` is walked is that of the rows. -/

namespace Godwit

/-! ## Tools -/

/-- A tool of a server. -/
structure McpTool where
  name : String
  description : Option String
  inputSchema : Json

/-- The derived `Deserialize` of `McpTool`. -/
def decodeMcpTool : Decoder McpTool := fun json => do
  let field ← structFields ["name", "description", "inputSchema"] json
  let name ← requiredField Json.asStr (field "name")
  let description ← optionalDecode Json.asStr (field "description")
  let inputSchema ← requiredField some (field "inputSchema")
  pure ⟨name, description, inputSchema⟩

/-- `to_core_tool`: the name of the server is put before that of the tool. -/
def McpTool.toCoreTool (tool : McpTool) (serverName : String) : Tool :=
  ⟨"function", serverName ++ "__" ++ tool.name, tool.description, some tool.inputSchema⟩

/-- `mcp_tools_to_core`. -/
def mcpToolsToCore (serverName : String) (tools : List McpTool) : List Tool :=
  tools.map fun tool => tool.toCoreTool serverName

/-- `str::split_once("__")`. -/
def splitToolName (toolName : String) : Option (String × String) :=
  (toolName.toList.dropInfix? ['_', '_']).map fun p => (String.ofList p.1, String.ofList p.2)

/-! ## Clients -/

/-- The command that starts a server. -/
structure McpServerConfig where
  name : String
  command : String
  args : List String
  env : List (String × String)

/-- How a server is started, and how a request is made to it. -/
structure McpBackend (Client : Type) where
  connect : McpServerConfig → Except McpClientError Client
  request : Client → String → Json → Except McpClientError Json × Client
  decodeError : Json → String

section Registry

variable {Client : Type} (backend : McpBackend Client)

/-- `list_tools`. -/
def McpClient.listTools (client : Client) : Except McpClientError (List McpTool) × Client :=
  let (result, client) := backend.request client "tools/list" (.obj [])
  (result.bind fun result =>
    let tools := (result.get "tools").getD .null
    match decodeList decodeMcpTool tools with
    | some tools => .ok tools
    | none =>
      .error (.remote "tools/list" (-32603) ("could not parse tools from server: " ++ backend.decodeError tools)),
    client)

/-- The texts of a result, a line to each. -/
def joinTexts (content : List Json) : String :=
  content.foldl (fun text item =>
    match (item.get "text").bind Json.asStr with
    | some t => (if text.isEmpty then text else text ++ "\n") ++ t
    | none => text) ""

/-- `call_tool`: the texts of the result are joined. -/
def McpClient.callTool (client : Client) (name : String) (arguments : Json) :
    Except McpClientError String × Client :=
  let (result, client) := backend.request client "tools/call" (.object [("name", .str name), ("arguments", arguments)])
  (result.bind fun result =>
    let text := joinTexts (((result.get "content").bind Json.asArray).getD [])
    if text.isEmpty then .error (.emptyToolResult name) else .ok text,
    client)

/-! ## The registry -/

/-- A configured server and its client, once it is connected. -/
structure ServerEntry (Client : Type) where
  config : McpServerConfig
  client : Option Client

/-- The name that the registry knows it by. -/
def ServerEntry.name (entry : ServerEntry Client) : String := entry.config.name

/-- The configured servers. -/
structure McpRegistry (Client : Type) where
  servers : Table (@ServerEntry.name Client)

/-- Why a tool call fails. -/
inductive McpError where
  | unknownServer (name : String)
  | invalidToolName (name : String)
  | client (error : McpClientError)

/-- A later configuration of a name takes the place of an earlier one. -/
def McpRegistry.fromConfig (configs : List McpServerConfig) : McpRegistry Client :=
  ⟨configs.foldl (fun servers config => servers.upsert ⟨config, none⟩) .empty⟩

/-- `ensure_connected`: the first use of a server starts it. -/
def McpRegistry.ensureConnected (registry : McpRegistry Client) (name : String) :
    Except McpError Unit × McpRegistry Client :=
  match registry.servers.find? name with
  | none => (.error (.unknownServer name), registry)
  | some entry =>
    if entry.client.isSome then (.ok (), registry)
    else
      match backend.connect entry.config with
      | .error e => (.error (.client e), registry)
      | .ok client => (.ok (), ⟨registry.servers.replace ⟨entry.config, some client⟩⟩)

/-- The connected client of a server. -/
def McpRegistry.client? (registry : McpRegistry Client) (name : String) : Option (McpServerConfig × Client) :=
  (registry.servers.find? name).bind fun entry => entry.client.map fun client => (entry.config, client)

/-- The tools of one server, and the registry after they were listed. A server that does not connect or does
    not list its tools has none. -/
def McpRegistry.serverTools (registry : McpRegistry Client) (name : String) : List Tool × McpRegistry Client :=
  match registry.ensureConnected backend name with
  | (.error _, registry) => ([], registry)
  | (.ok (), registry) =>
    match registry.client? name with
    | none => ([], registry)
    | some (config, client) =>
      let (tools, client) := McpClient.listTools backend client
      let registry := ⟨registry.servers.replace ⟨config, some client⟩⟩
      match tools with
      | .ok tools => (mcpToolsToCore name tools, registry)
      | .error _ => ([], registry)

/-- The loop of `all_tools`. -/
def McpRegistry.toolsOf (registry : McpRegistry Client) : List String → List Tool × McpRegistry Client
  | [] => ([], registry)
  | name :: names =>
    let (tools, registry) := registry.serverTools backend name
    let (later, registry) := McpRegistry.toolsOf registry names
    (tools ++ later, registry)

/-- `all_tools`. -/
def McpRegistry.allTools (registry : McpRegistry Client) : List Tool × McpRegistry Client :=
  registry.toolsOf backend (registry.servers.rows.map ServerEntry.name)

/-- A `call_tool` of a client: the server it belongs to, the name and the arguments. -/
structure SentCall where
  serverName : String
  bareName : String
  arguments : Json

/-- The result of a tool call, what was sent for it, and the registry after it. -/
structure ToolCallOutcome (Client : Type) where
  result : Except McpError String
  sent : List SentCall
  registry : McpRegistry Client

/-- `call_tool`: the name is split at the first separator. -/
def McpRegistry.callTool (registry : McpRegistry Client) (toolName : String) (arguments : Json) :
    ToolCallOutcome Client :=
  match (splitToolName toolName).filter fun p => !p.1.isEmpty && !p.2.isEmpty with
  | none => ⟨.error (.invalidToolName toolName), [], registry⟩
  | some (serverName, bareName) =>
    match registry.ensureConnected backend serverName with
    | (.error e, registry) => ⟨.error e, [], registry⟩
    | (.ok (), registry) =>
      match registry.client? serverName with
      | none => ⟨.error (.unknownServer serverName), [], registry⟩
      | some (config, client) =>
        let (result, client) := McpClient.callTool backend client bareName arguments
        ⟨result.mapError McpError.client, [⟨serverName, bareName, arguments⟩],
          ⟨registry.servers.replace ⟨config, some client⟩⟩⟩

end Registry

end Godwit
