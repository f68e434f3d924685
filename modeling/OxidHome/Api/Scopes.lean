import Mathlib

/-!
# Scopes

`api/scopes.rs` and the scopes that routes, tools and resources ask for.
-/

namespace OxidHome.Api

abbrev Scope := String

def DEVICES_LIST : Scope := "devices:list"
def DEVICES_READ : Scope := "devices:read"
def DEVICES_COMMAND : Scope := "devices:command"
def EVENTS_READ : Scope := "events:read"
def LOGS_READ : Scope := "logs:read"
def PLUGINS_LIST : Scope := "plugins:list"
def PLUGINS_INSTALL : Scope := "plugins:install"
def PLUGINS_START : Scope := "plugins:start"
def PLUGINS_STOP : Scope := "plugins:stop"
def PLUGINS_UNINSTALL : Scope := "plugins:uninstall"
def STATUS_READ : Scope := "status:read"
def BLOBS_READ : Scope := "blobs:read"

def WILDCARD : String := "*"

def satisfiedBy (required : Scope) (authorized : List String) : Bool :=
  authorized.any fun s => s = WILDCARD || s = required

end OxidHome.Api
