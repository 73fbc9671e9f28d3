import Mathlib.Data.List.Dedup
import Mirage.Lib.JsonEq

/-!
`classify_changes` of bin/mirage/config_edit.rs: which differences between two
configuration documents call for a restart. Inbounds and outbounds are looked up
by their tags. A set of tags is a list without repetition; its order means nothing.
-/

namespace Mirage.Config
open Json

inductive Reason where
  | outboundAdded (tag : String)
  | outboundRemoved (tag : String)
  | outboundChanged (tag : String)
  | outboundOrder
  | outboundStructure
  | inboundAdded (tag : String)
  | inboundRemoved (tag : String)
  | inboundType (tag oldType newType : String)
  | inboundKey (tag key : String)
  | inboundChanged (tag type : String)
  | inboundStructure
  | tuningKey (key : String)
  | rootKey (key : String)
  deriving DecidableEq

namespace Reason

def text : Reason → String
  | outboundAdded tag => "新增出站节点/组 `" ++ tag ++ "`"
  | outboundRemoved tag => "删除出站节点/组 `" ++ tag ++ "`"
  | outboundChanged tag => "出站节点/组 `" ++ tag ++ "` 参数发生变更"
  | outboundOrder => "出站列表顺序或结构发生变动"
  | outboundStructure => "出站列表结构发生变动"
  | inboundAdded tag => "新增入站 `" ++ tag ++ "` 需重启生效"
  | inboundRemoved tag => "删除入站 `" ++ tag ++ "` 需重启以关闭监听端口"
  | inboundType tag oldType newType =>
      "入站 `" ++ tag ++ "` 类型变更 (`" ++ oldType ++ "` -> `" ++ newType ++ "`) 需重启"
  | inboundKey tag key => "mirage_server 入站 `" ++ tag ++ "` 的 `" ++ key ++ "` 参数变更需重启生效"
  | inboundChanged tag type => "入站 `" ++ tag ++ "` (" ++ type ++ ") 参数发生变动需重启生效"
  | inboundStructure => "入站列表结构发生变动需重启生效"
  | tuningKey key => "tuning." ++ key ++ " 参数变更需重启服务生效"
  | rootKey key => key ++ " 配置变动需重启服务生效"

end Reason

inductive ApplyPlan where
  | noChange
  | hotReload
  | restartRequired (reasons : List Reason)
  deriving DecidableEq

def tagOf (item : Value) : Option String := item.getStr "tag"

def tags (items : List Value) : List String := (items.filterMap tagOf).dedup

def findTag (tag : String) (items : List Value) : Option Value :=
  items.find? fun item => decide (tagOf item = some tag)

def inboundHotKeys : List String := ["password", "users"]

def ApplyPlan.reasons : ApplyPlan → List Reason
  | restartRequired reasons => reasons
  | _ => []

end Mirage.Config
