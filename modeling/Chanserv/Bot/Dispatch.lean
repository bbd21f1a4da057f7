import Chanserv.Bot.Callbacks
import Chanserv.Bot.SmallTalk

/-! One update: the dispatcher of sessions, then the handler for its kind.

The library that polls Telegram calls the dispatcher for every message, then the
handler of the command or that of small talk. -/
namespace Chanserv
open Text Program

inductive Command where
  | help | start
deriving DecidableEq, Repr

inductive Update where
  | command (name : Command) (message : Message)
  | message (message : Message)
  | callback (query : CallbackQuery)

/-- Who sent an update. -/
def Update.fromId : Update → Int
  | .command _ m => m.from_.id
  | .message m => m.from_.id
  | .callback q => q.from_.id

structure DispatcherEnv where
  insertConsumer : Answer Bool
  commit : Answer Bool
  selectConsumers : Answer Bool

structure CommandEnv where
  greeting : Sending
  menu : Sending

/-- The answers of the world to all calls made for one update, and the time. -/
structure UpdateEnv where
  now : Int
  dispatcher : DispatcherEnv
  command : CommandEnv
  smallTalk : SmallTalkEnv
  callback : CallbackEnv

section
variable (cfg : Config)

/-! ### Sessions -/

def addConsumerToDb (env : DispatcherEnv) (user : TgUser) : ServiceM Unit := do
  let s ← get
  guarded (user.id ∉ s.vConsumers) do
    let ok ← sql (.insertConsumer user.id user.username) env.insertConsumer fun db =>
      {db with consumers := db.consumers ++ [(user.id, user.username)]}
    guarded ok do
      let _ ← call .commit env.commit

/-- Ticks of the clock in an hour and in ten minutes; a tick is a nanosecond. -/
def hour : Int := 3600000000000
def cleanupPeriod : Int := 600000000000

def sessionTtl : Int :=
  let ttlHours := atol cfg.sessionTtlHours
  (if ttlHours ≤ 0 then 24 else ttlHours) * hour

/-- `evict_idle_sessions`, at most once in ten minutes. -/
def evictIdleSessions (now : Int) : BotM Unit := do
  let w ← get
  guarded (cleanupPeriod ≤ now - w.mLastSessionsCleanup) do
    modify fun w => {w with mLastSessionsCleanup := now}
    modify fun w =>
      {w with mSessions := (w.mSessions.evictIdle now (sessionTtl cfg)).2, uD := none}

/-- `session_dispatcher`. -/
def sessionDispatcher (env : DispatcherEnv) (now : Int) (message : Message) : BotM Unit := do
  let w ← get
  guarded (message.from_.id ∉ w.sh.vConsumers) <| serviceBot do
    addConsumerToDb env message.from_
    reloadConsumersList env.selectConsumers
  evictIdleSessions cfg now
  let found ← selectSession now message.from_.id
  guarded (found = false) <| modify fun w =>
    let (p, store) := w.mSessions.create message.from_.id message.from_.username
      message.from_.firstName now
    {w with uD := some p, mSessions := store}

/-! ### Commands -/

def sendMenu (env : CommandEnv) (message : Message) (prompt : Text) (kb : Keyboard) : ChatM Unit := do
  let clicked ← service (call (.sendMessage (.user message.chat.id) prompt kb) env.menu)
  modifySession fun u => {u with clickedMsgId := clicked.messageId}

def startMenu (env : CommandEnv) (message : Message) : ChatM Unit := do
  if cfg.isDeveloper message.from_.id then
    sendMenu env message (of "Режим разработчика") .developer
  else do
    let _ ← service (call (.sendMessage (.user message.chat.id)
      (of "Привет, " ++ message.from_.firstName ++
        of "!\nОпиши мне свою проблему, а наши специалисты свяжутся с тобой, и решат её.") .ganzel)
      env.greeting)
    let c ← get
    if cfg.isStaff message.from_.id then sendMenu env message (of "Выбери кнопку") .staff
    else if message.from_.id ∈ c.sh.vAllowedContractors then
      sendMenu env message (of "Выбери кнопку ниже") .contractor
    else sendMenu env message (of "Выберите кнопку ниже") .consumer

def onStartCommand (env : CommandEnv) (now : Int) (message : Message) : BotM Unit := do
  let found ← selectSession now message.from_.id
  guarded found (onSession (startMenu cfg env message))

def onCommand (env : CommandEnv) (now : Int) (message : Message) : Command → BotM Unit
  | .help => do
    let found ← selectSession now message.from_.id
    guarded found <| onSession do
      modifyTask fun _ => {}
      let _ ← service (call (.sendMessage (.user message.chat.id)
        (of "По вопросам и ошибкам бота можно написать сюда - @tg_devel_tg")) env.greeting)
  | .start => do
    let found ← selectSession now message.from_.id
    guarded found do
      onSession (modifyTask fun _ => {})
      onStartCommand cfg env now message

/-! ### The handler of an update -/

def handleUpdate (env : UpdateEnv) : Update → BotM Unit
  | .command name message => do
    sessionDispatcher cfg env.dispatcher env.now message
    onCommand cfg env.command env.now message name
  | .message message => do
    sessionDispatcher cfg env.dispatcher env.now message
    handleSmallTalk cfg env.smallTalk message env.now
  | .callback query => onCallbackQuery cfg env.callback query env.now

end

end Chanserv
