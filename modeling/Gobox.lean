import Gobox.Basic
import Gobox.Async.TaskGroup
import Gobox.Async.RunGroup
import Gobox.Async.Mutex
import Gobox.CronJob.Model
import Gobox.CronJob.Invariant
import Gobox.CronJob.Drain
import Gobox.CronJob.Errors
import Gobox.ErrorFlow
import Gobox.Async.Outcomes
import Gobox.Signals
import Gobox.AsyncTask
import Gobox.Shuffler
import Gobox.Env
import Gobox.App
import Gobox.Telefork
import Gobox.Logfile
import Gobox.Call
