import Tarian.Go.Map
import Tarian.Sha256
import Tarian.Tarianpb
import Tarian.Podagent.Basic
import Tarian.Podagent.Processes
import Tarian.Podagent.Files
import Tarian.Podagent.Policy
import Tarian.Podagent.Agent
import Tarian.Podagent.Lifecycle
import Tarian.Cmd.TarianPodAgent
import Tarian.Webhookserver.PodAgentInjector
import Tarian.Tarianctl.Get
